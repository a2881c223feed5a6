import Mathlib.Data.List.Induction
import PhasedInduction.FileTree

/-!
# Files that are written and kept

A path is followed through directories only, so it leads to the same place after a change that
keeps the directories.  What is written to a file is found there afterwards, and making
directories takes nothing away and adds directories only.

What stood somewhere before such a change is found by the same paths as after it, because
everything above it was there already.  Only a path that goes up can take another way, through a
new directory.

Main results:

- Theorem {lit}`FileTree.locate_of_keepsDirectories`: where a path leads after a change.
- Theorem {lit}`FileTree.nodeAt_of_write`: a written file holds what was written.
- Theorem {lit}`FileTree.adds_createParents`: making the directories above a path takes nothing
  away and adds directories only.
- Theorem {lit}`FileTree.nodeAt_of_adds`: what a path leads to after a change is new, or the path
  led there before.
-/

namespace PhasedInduction.FileTree

variable {t t' : FileTree}

/-- What can be read is there. -/
theorem contains_of_read {path : List Char} {text : String} (h : t.read path = .ok text) :
    t.contains path = true := by
  unfold read at h
  unfold contains
  cases hnode : t.nodeAt path with
  | ok node => rfl
  | error e => simp [hnode] at h

/-! ## Following paths -/

/-- Where a path with an anchor starts. -/
def start (t : FileTree) : Anchor → Location
  | .root => []
  | .here | .none => t.here

/-- The parts that an anchor stands for. -/
def lead : Anchor → List (List Char)
  | .here => [['.']]
  | .root | .none => []

/-- Where a path leads. -/
def follow (t : FileTree) (p : Path) : Except FileError Location :=
  (lead p.anchor ++ p.parts).foldlM t.enter (t.start p.anchor)

/-- Whether a text can be used as a path at all. -/
def IsUsable (path : List Char) : Prop :=
  path ≠ [] ∧ path.contains '\x00' = false ∧ (String.ofList path).utf8ByteSize ≤ pathLimit

/-- A path text leads where its path leads, if it can be used at all. -/
theorem locate_eq_ok_iff {path : List Char} {place : Location} :
    t.locate path = .ok place ↔ IsUsable path ∧ t.follow (Path.ofText path) = .ok place := by
  unfold locate IsUsable
  by_cases hempty : path = []
  · simp [hempty]
  rw [if_neg hempty]
  by_cases hnul : path.contains '\x00' = true
  · rw [if_pos hnul, hnul]
    simp
  rw [if_neg hnul]
  by_cases hlong : (String.ofList path).utf8ByteSize > pathLimit
  · rw [if_pos hlong]
    simp [Nat.not_le.mpr hlong]
  rw [if_neg hlong]
  have husable : path ≠ [] ∧ path.contains '\x00' = false ∧
      (String.ofList path).utf8ByteSize ≤ pathLimit :=
    ⟨hempty, Bool.eq_false_iff.mpr hnul, Nat.not_lt.mp hlong⟩
  rw [and_iff_right husable]
  rcases Path.ofText_cases path with ⟨part, parts, hpieces, hpath⟩ | ⟨parts, hpieces, hpath⟩ |
    ⟨hroot, -, hpath⟩
  · rw [hpath, hpieces]
    rfl
  · rw [hpath, hpieces]
    rfl
  · rw [hpath]
    split
    · next parts hpieces =>
      cases parts with
      | nil =>
        have htext := Text.join_pieces '/' path
        rw [hpieces] at htext
        exact absurd htext.symm hempty
      | cons part parts => exact absurd hpieces (hroot part parts)
    · rfl

/-- The first part is entered, and the others from there. -/
theorem foldlM_enter_cons_iff {part : List Char} {parts : List (List Char)}
    {place last : Location} :
    (part :: parts).foldlM t.enter place = .ok last ↔
      ∃ next, t.enter place part = .ok next ∧ parts.foldlM t.enter next = .ok last := by
  rw [List.foldlM_cons]
  cases t.enter place part with
  | error e =>
    constructor
    · intro h
      cases h
    · rintro ⟨next, henter, -⟩
      cases henter
  | ok next =>
    constructor
    · intro h
      exact ⟨next, rfl, h⟩
    · rintro ⟨next', henter, hrest⟩
      obtain rfl : next = next' := Except.ok.inj henter
      exact hrest

/-! ## Following paths after a change -/

/-- The directories of a tree are still directories in another one, seen from the same
place and with the same of them closed. -/
structure KeepsDirectories (t t' : FileTree) : Prop where
  here : t'.here = t.here
  closed : t'.closed = t.closed
  directories : ∀ place, t.node? place = some .directory → t'.node? place = some .directory

/-- Paths start where they started. -/
theorem KeepsDirectories.start (h : KeepsDirectories t t') (anchor : Anchor) :
    t'.start anchor = t.start anchor := by
  cases anchor with
  | root => rfl
  | _ => exact h.here

/-- A part of a path is entered as before. -/
theorem enter_of_keepsDirectories (h : KeepsDirectories t t') {place next : Location}
    {part : List Char} (henter : t.enter place part = .ok next) :
    t'.enter place part = .ok next := by
  unfold enter at henter ⊢
  cases hnode : t.node? place with
  | none =>
    rw [hnode] at henter
    cases henter
  | some node =>
    cases node with
    | directory =>
      rw [hnode] at henter
      rw [h.directories place hnode]
      simp only [h.closed]
      exact henter
    | _ =>
      rw [hnode] at henter
      cases henter

/-- The parts of a path are entered as before. -/
theorem foldlM_enter_of_keepsDirectories (h : KeepsDirectories t t') {parts : List (List Char)}
    {place last : Location} (hparts : parts.foldlM t.enter place = .ok last) :
    parts.foldlM t'.enter place = .ok last := by
  induction parts generalizing place with
  | nil => exact hparts
  | cons part parts ih =>
    obtain ⟨next, henter, hrest⟩ := foldlM_enter_cons_iff.mp hparts
    exact foldlM_enter_cons_iff.mpr ⟨next, enter_of_keepsDirectories h henter, ih hrest⟩

/-- A path leads to the same place after a change that keeps the directories. -/
theorem locate_of_keepsDirectories (h : KeepsDirectories t t') {path : List Char}
    {place : Location} (hlocate : t.locate path = .ok place) : t'.locate path = .ok place := by
  obtain ⟨husable, hfollow⟩ := locate_eq_ok_iff.mp hlocate
  refine locate_eq_ok_iff.mpr ⟨husable, ?_⟩
  rw [follow, h.start]
  exact foldlM_enter_of_keepsDirectories h hfollow

/-! ## Writing a file -/

/-- A path that does not end with a slash has none to be taken away. -/
theorem withoutSlashes_of_getLast? {path : List Char} (h : path.getLast? ≠ some '/') :
    withoutSlashes path = path := by
  unfold withoutSlashes
  rw [← List.head?_reverse] at h
  cases hreverse : path.reverse with
  | nil =>
    obtain rfl : path = [] := List.reverse_eq_nil_iff.mp hreverse
    rfl
  | cons c more =>
    have hc : c ≠ '/' := by simpa [hreverse] using h
    have hpath : (c :: more).reverse = path := by rw [← hreverse, List.reverse_reverse]
    rw [List.dropWhile_cons_of_neg (by simpa using hc), hpath]
    split
    · cases hreverse
    · rfl

/-- Only a root is a directory by itself. -/
theorem ne_nil_of_node? {place : Location} {found : Option Node} (h : t.node? place = found)
    (hfound : found ≠ some .directory) : place ≠ [] := by
  rintro rfl
  exact hfound h.symm

/-- What is put at a location other than the root stands there. -/
theorem node?_put_self {place : Location} (hplace : place ≠ []) (node : Node) :
    (t.put place node).node? place = some node := by
  rw [node?_put hplace, if_pos rfl]

/-- How writing ends: without a change, or with the file where the path leads. -/
theorem write_cases (t : FileTree) (path : List Char) (content : String) :
    (∃ e, t.write path content = (.error e, t)) ∨
      ∃ place, t.locate path = .ok place ∧ t.node? place ≠ some .directory ∧
        t.write path content = (.ok (), t.put place (.file content)) := by
  unfold write
  split
  · exact .inl ⟨_, rfl⟩
  next place hlocate =>
  split
  · exact .inl ⟨_, rfl⟩
  next hfile =>
  split
  · exact .inl ⟨_, rfl⟩
  obtain ⟨hslash, hdirectory⟩ := not_or.mp hfile
  rw [withoutSlashes_of_getLast? hslash] at hlocate
  exact .inr ⟨place, hlocate, hdirectory, rfl⟩

/-- A written file holds what was written, and nothing else has changed. -/
theorem nodeAt_of_write {path : List Char} {content : String}
    (h : t.write path content = (.ok (), t')) : t'.nodeAt path = .ok (.file content) := by
  rcases t.write_cases path content with ⟨e, hend⟩ | ⟨place, hlocate, hdirectory, hend⟩
  · cases hend.symm.trans h
  obtain rfl : t.put place (.file content) = t' := (Prod.mk.inj (hend.symm.trans h)).2
  have hplace := ne_nil_of_node? rfl hdirectory
  have hkeeps : KeepsDirectories t (t.put place (.file content)) := by
    refine ⟨rfl, rfl, ?_⟩
    intro other hother
    have hne : other ≠ place := by
      rintro rfl
      exact hdirectory hother
    rw [node?_put hplace, if_neg hne]
    exact hother
  unfold nodeAt
  rw [locate_of_keepsDirectories hkeeps hlocate]
  simp only [node?_put_self hplace]

/-- Writing fails without a change. -/
theorem write_eq_error {path : List Char} {content : String} {e : FileError}
    (h : t.write path content = (.error e, t')) : t' = t := by
  rcases t.write_cases path content with ⟨e', hend⟩ | ⟨place, -, -, hend⟩
  · exact (Prod.mk.inj (h.symm.trans hend)).2
  · cases hend.symm.trans h

/-- Nothing is written to a path that leads nowhere. -/
theorem write_of_locate {path : List Char} (h : ∀ place, t.locate path ≠ .ok place)
    (content : String) : ∃ e, t.write path content = (.error e, t) := by
  rcases t.write_cases path content with hend | ⟨place, hlocate, -, -⟩
  · exact hend
  · exact absurd hlocate (h place)

/-! ## What a change adds -/

/-- All that a tree holds is in another one, seen from the same place and with the same
permissions. -/
structure Grows (t t' : FileTree) : Prop where
  here : t'.here = t.here
  closed : t'.closed = t.closed
  guarded : t'.guarded = t.guarded
  nodes : ∀ place node, t.node? place = some node → t'.node? place = some node

theorem Grows.keepsDirectories (h : Grows t t') : KeepsDirectories t t' :=
  ⟨h.here, h.closed, fun place => h.nodes place .directory⟩

/-- What a path leads to is kept. -/
theorem nodeAt_of_grows (h : Grows t t') {path : List Char} {node : Node}
    (hnode : t.nodeAt path = .ok node) : t'.nodeAt path = .ok node := by
  unfold nodeAt at hnode ⊢
  split at hnode
  · cases hnode
  next place hlocate =>
  rw [locate_of_keepsDirectories h.keepsDirectories hlocate]
  split at hnode
  · next found hfound =>
    obtain rfl : found = node := Except.ok.inj hnode
    simp only [h.nodes place found hfound]
  · cases hnode

/-- A tree holds all that another one holds, and besides that only nodes of a certain kind. -/
structure Adds (fresh : Node → Prop) (t t' : FileTree) : Prop extends Grows t t' where
  added : ∀ place node, t'.node? place = some node → t.node? place = some node ∨ fresh node

section Adding

variable {fresh : Node → Prop}

theorem Adds.refl (t : FileTree) : Adds fresh t t :=
  ⟨⟨rfl, rfl, rfl, fun _ _ h => h⟩, fun _ _ => .inl⟩

theorem Adds.trans {t'' : FileTree} (h : Adds fresh t t') (h' : Adds fresh t' t'') :
    Adds fresh t t'' := by
  refine ⟨⟨h'.here.trans h.here, h'.closed.trans h.closed, h'.guarded.trans h.guarded, ?_⟩, ?_⟩
  · intro place node hnode
    exact h'.nodes place node (h.nodes place node hnode)
  · intro place node hnode
    rcases h'.added place node hnode with hold | hfresh
    · exact h.added place node hold
    · exact .inr hfresh

theorem Adds.mono {other : Node → Prop} (h : Adds fresh t t')
    (hfresh : ∀ node, fresh node → other node) : Adds other t t' :=
  ⟨h.toGrows, fun place node hnode => (h.added place node hnode).imp_right (hfresh node)⟩

/-- Putting a node where nothing is adds it. -/
theorem adds_put {place : Location} {node : Node} (hnone : t.node? place = none)
    (hfresh : fresh node) : Adds fresh t (t.put place node) := by
  have hplace : place ≠ [] := ne_nil_of_node? hnone nofun
  refine ⟨⟨rfl, rfl, rfl, ?_⟩, ?_⟩
  · intro other old hold
    have hne : other ≠ place := by
      rintro rfl
      cases hnone.symm.trans hold
    rw [node?_put hplace, if_neg hne]
    exact hold
  · intro other found hfound
    rw [node?_put hplace] at hfound
    split at hfound
    · obtain rfl := Option.some.inj hfound
      exact .inr hfresh
    · exact .inl hfound

/-- Writing to a path that leads to no file adds a file. -/
theorem adds_write {path : List Char} {content : String}
    (h : ∀ node, t.nodeAt path = .ok node → node = .directory) (hfresh : fresh (.file content)) :
    Adds fresh t (t.write path content).2 := by
  rcases t.write_cases path content with ⟨e, hend⟩ | ⟨place, hlocate, hdirectory, hend⟩
  · rw [hend]
    exact Adds.refl t
  rw [hend]
  cases hnode : t.node? place with
  | none => exact adds_put hnode hfresh
  | some node =>
    have hthere : t.nodeAt path = .ok node := by simp only [nodeAt, hlocate, hnode]
    rw [hnode, h node hthere] at hdirectory
    exact absurd rfl hdirectory

end Adding

/-! ## Making directories -/

/-- A directory is made where a path leads and nothing is. -/
theorem exists_put_of_createDirectory {path : List Char} (h : t.createDirectory path = .ok t') :
    ∃ place, t.locate (withoutSlashes path) = .ok place ∧ t.node? place = none ∧
      t' = t.put place .directory := by
  unfold createDirectory at h
  split at h
  · cases h
  next place hlocate =>
  split at h
  · cases h
  next hnone =>
  split at h
  · cases h
  exact ⟨place, hlocate, hnone, (Except.ok.inj h).symm⟩

/-- Making a directory adds it. -/
theorem adds_createDirectory {path : List Char} (h : t.createDirectory path = .ok t') :
    Adds (· = .directory) t t' := by
  obtain ⟨place, -, hnone, rfl⟩ := exists_put_of_createDirectory h
  exact adds_put hnone rfl

/-- Finding or making a directory adds nothing else. -/
theorem adds_ensureDirectory (t : FileTree) (path : List Char) :
    Adds (· = .directory) t (t.ensureDirectory path).2 := by
  unfold ensureDirectory
  split
  · next t' hcreate => exact adds_createDirectory hcreate
  · split <;> exact Adds.refl t

/-- Making a directory and those above it adds nothing else. -/
theorem adds_createDirectories (budget : Nat) (t : FileTree) (path : List Char) :
    Adds (· = .directory) t (createDirectories budget t path).2 := by
  induction budget generalizing t path with
  | zero => exact Adds.refl t
  | succ budget ih =>
    unfold createDirectories
    split
    · exact Adds.refl t
    · split
      · next t' hcreate => exact adds_createDirectory hcreate
      · split
        · exact Adds.refl t
        · next parent hparent =>
          have hparents := ih t parent.text
          split
          · next t' hok =>
            rw [hok] at hparents
            exact hparents.trans (adds_ensureDirectory t' path)
          · exact hparents
      · split <;> exact Adds.refl t

/-- Making the directories above a path takes nothing away and adds directories only. -/
theorem adds_createParents (t : FileTree) (path : List Char) :
    Adds (· = .directory) t (t.createParents path).2 := by
  unfold createParents
  split
  · exact Adds.refl t
  · split
    · exact Adds.refl t
    · exact adds_createDirectories _ t _

/-- Making the directories above a path takes nothing away. -/
theorem grows_createParents (t : FileTree) (path : List Char) :
    Grows t (t.createParents path).2 :=
  (adds_createParents t path).toGrows

/-! ## Following paths back -/

/-- Everything stands in a directory. -/
def IsRooted (t : FileTree) : Prop :=
  ∀ place name node, t.node? (place ++ [name]) = some node → t.node? place = some .directory

/-- A tree is rooted if each of its nodes stands in a directory. -/
theorem isRooted_of_nodes (h : ∀ entry ∈ t.nodes, t.node? entry.1.dropLast = some .directory) :
    t.IsRooted := by
  intro place name node hnode
  have hlookup : t.nodes.lookup (place ++ [name]) = some node := by
    rw [node?, if_neg (List.append_ne_nil_of_right_ne_nil place (List.cons_ne_nil name []))]
      at hnode
    exact hnode
  obtain ⟨before, after, hnodes, -⟩ := List.lookup_eq_some_iff.mp hlookup
  have habove := h (place ++ [name], node) (hnodes ▸ List.mem_append_right _ List.mem_cons_self)
  rw [List.dropLast_concat] at habove
  exact habove

/-- Everything above a node is a directory. -/
theorem IsRooted.directory_above (h : t.IsRooted) {place below : Location} {node : Node}
    (hnode : t.node? (place ++ below) = some node) (hbelow : below ≠ []) :
    t.node? place = some .directory := by
  induction below using List.reverseRecOn generalizing node with
  | nil => exact absurd rfl hbelow
  | append_singleton front name ih =>
    rw [← List.append_assoc] at hnode
    have hfront := h _ _ _ hnode
    by_cases hempty : front = []
    · rw [hempty, List.append_nil] at hfront
      exact hfront
    · exact ih hfront hempty

/-- A part that does not go up leads to the same location or below it. -/
theorem exists_eq_append_of_enter {place next : Location} {part : List Char}
    (hup : part ≠ ['.', '.']) (h : t.enter place part = .ok next) :
    ∃ below, next = place ++ below := by
  unfold enter at h
  split at h
  · cases h
  · split at h
    · exact ⟨[], by rw [List.append_nil, Except.ok.inj h]⟩
    split at h
    · cases h
    split at h
    · exact ⟨[], by rw [List.append_nil, Except.ok.inj h]⟩
    split at h
    · cases h
    · exact ⟨_, (Except.ok.inj h).symm⟩
  · cases h

/-- Parts that do not go up lead to the same location or below it. -/
theorem exists_eq_append_of_foldlM_enter {parts : List (List Char)}
    (hup : ∀ part ∈ parts, part ≠ ['.', '.']) {place last : Location}
    (h : parts.foldlM t.enter place = .ok last) : ∃ below, last = place ++ below := by
  induction parts generalizing place with
  | nil =>
    obtain rfl : place = last := Except.ok.inj h
    exact ⟨[], (List.append_nil place).symm⟩
  | cons part parts ih =>
    obtain ⟨next, henter, hrest⟩ := foldlM_enter_cons_iff.mp h
    obtain ⟨first, rfl⟩ := exists_eq_append_of_enter (hup part List.mem_cons_self) henter
    obtain ⟨rest, rfl⟩ := ih (fun part hpart => hup part (List.mem_cons_of_mem _ hpart)) hrest
    exact ⟨first ++ rest, by rw [List.append_assoc]⟩

/-- A part can be entered from a directory only. -/
theorem directory_of_enter {place next : Location} {part : List Char}
    (h : t.enter place part = .ok next) : t.node? place = some .directory := by
  unfold enter at h
  split at h
  · cases h
  · next hdirectory => exact hdirectory
  · cases h

/-- Parts that do not go up, and lead to something old in a tree that has grown, led there
before. -/
theorem foldlM_enter_of_grows_back (h : Grows t t') (hrooted : t.IsRooted)
    {parts : List (List Char)} (hup : ∀ part ∈ parts, part ≠ ['.', '.']) {place last : Location}
    {node : Node} (hold : t.node? last = some node)
    (hparts : parts.foldlM t'.enter place = .ok last) : parts.foldlM t.enter place = .ok last := by
  induction parts generalizing place with
  | nil => exact hparts
  | cons part parts ih =>
    have hrest : ∀ part ∈ parts, part ≠ ['.', '.'] :=
      fun part hpart => hup part (List.mem_cons_of_mem _ hpart)
    obtain ⟨next, henter, hbelow⟩ := foldlM_enter_cons_iff.mp hparts
    obtain ⟨first, rfl⟩ := exists_eq_append_of_enter (hup part List.mem_cons_self) henter
    obtain ⟨rest, rfl⟩ := exists_eq_append_of_foldlM_enter hrest hbelow
    -- Where the part is entered from is above what is found, or it is what is found.
    have hplace : t.node? place = some .directory := by
      by_cases hnothing : first ++ rest = []
      · obtain ⟨rfl, rfl⟩ := List.append_eq_nil_iff.mp hnothing
        simp only [List.append_nil] at hold
        have hnew := h.nodes place node hold
        rw [directory_of_enter henter] at hnew
        rw [hold, hnew]
      · rw [List.append_assoc] at hold
        exact hrooted.directory_above hold hnothing
    have hback : t.enter place part = .ok (place ++ first) := by
      rw [← henter]
      simp only [enter, hplace, directory_of_enter henter, h.closed]
    exact foldlM_enter_cons_iff.mpr ⟨place ++ first, hback, ih hrest hbelow⟩

/-- A path without steps up goes along no part that is such a step. -/
theorem ne_up_of_mem_parts {p : Path} (hup : .up ∉ p.components) :
    ∀ part ∈ lead p.anchor ++ p.parts, part ≠ ['.', '.'] := by
  rintro part hpart rfl
  rcases List.mem_append.mp hpart with hlead | hpart
  · cases hanchor : p.anchor <;> simp [hanchor, lead] at hlead
  · exact hup (List.mem_append_right _ (List.mem_filterMap.mpr ⟨['.', '.'], hpart, rfl⟩))

/-- A path that does not go up, and leads to something old in a tree that has grown, led there
before. -/
theorem locate_of_grows_back (h : Grows t t') (hrooted : t.IsRooted) {path : List Char}
    (hup : .up ∉ (Path.ofText path).components) {place : Location} {node : Node}
    (hold : t.node? place = some node) (hlocate : t'.locate path = .ok place) :
    t.locate path = .ok place := by
  obtain ⟨husable, hfollow⟩ := locate_eq_ok_iff.mp hlocate
  refine locate_eq_ok_iff.mpr ⟨husable, ?_⟩
  rw [follow, h.keepsDirectories.start] at hfollow
  exact foldlM_enter_of_grows_back h hrooted (ne_up_of_mem_parts hup) hold hfollow

/-- What a path that does not go up leads to after a change is new, or the path led there
before. -/
theorem nodeAt_of_adds {fresh : Node → Prop} (h : Adds fresh t t') (hrooted : t.IsRooted)
    {path : List Char} (hup : .up ∉ (Path.ofText path).components) {node : Node}
    (hnode : t'.nodeAt path = .ok node) : t.nodeAt path = .ok node ∨ fresh node := by
  unfold nodeAt at hnode
  split at hnode
  · cases hnode
  next place hlocate =>
  split at hnode
  · next found hfound =>
    obtain rfl : found = node := Except.ok.inj hnode
    rcases h.added place found hfound with hold | hfresh
    · have hback := locate_of_grows_back h.toGrows hrooted hup hold hlocate
      left
      simp only [nodeAt, hback, hold]
    · exact .inr hfresh
  · cases hnode

end PhasedInduction.FileTree
