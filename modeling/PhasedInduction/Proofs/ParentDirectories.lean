import PhasedInduction.Proofs.FileTrees
import PhasedInduction.Proofs.PathTexts

/-!
# Directories above a path

The parent of a path leads to the directory that the last step of the path is taken from.  So a
directory that was made has its parent, and where the parent could not be made, nothing can be
made or written below it.  What is left when making directories has failed stays as it is when
they are made again.

Main results:

- Theorem {lit}`FileTree.isDirectory_parent_of_locate`: a path that leads somewhere has a parent
  that leads to a directory.
- Theorem {lit}`FileTree.createDirectories_again`: making directories after a failure fails again
  and changes nothing.
- Theorem {lit}`FileTree.createParents_again`: the directories above a path are made once.
-/

namespace PhasedInduction

/-! ## Parents of path texts -/

namespace Path

/-- The text of a parent has no slash at its end that could be taken away. -/
theorem withoutSlashes_text_parent {path : List Char} {parent : Path}
    (h : (ofText path).parent? = some parent) :
    FileTree.withoutSlashes parent.text = parent.text := by
  by_cases hparts : parent.parts = []
  · obtain ⟨anchor, parts⟩ := parent
    obtain rfl : parts = [] := hparts
    cases anchor <;> rfl
  · obtain ⟨c, hc, hslash⟩ := getLast?_text_parent h hparts
    refine FileTree.withoutSlashes_of_getLast? ?_
    rw [hc]
    simpa using hslash

end Path

/-! ## Parents are directories -/

namespace FileTree

variable {t t' : FileTree} {path : List Char}

/-- Void parts lead nowhere else. -/
theorem eq_of_foldlM_enter_void {voids : List (List Char)}
    (hvoid : ∀ part ∈ voids, Path.isVoid part = true) {place last : Location}
    (h : voids.foldlM t.enter place = .ok last) : last = place := by
  induction voids generalizing place with
  | nil => exact (Except.ok.inj h).symm
  | cons part voids ih =>
    obtain ⟨next, henter, hrest⟩ := foldlM_enter_cons_iff.mp h
    have hnext : next = place := by
      simp only [enter, directory_of_enter henter, hvoid part List.mem_cons_self, if_true]
        at henter
      split at henter
      · exact (Except.ok.inj henter).symm
      split at henter
      · cases henter
      · exact (Except.ok.inj henter).symm
    rw [ih (fun part hpart => hvoid part (List.mem_cons_of_mem _ hpart)) hrest, hnext]

/-- Parts one after the other are entered one after the other. -/
theorem exists_foldlM_of_append {front rest : List (List Char)} {place last : Location}
    (h : (front ++ rest).foldlM t.enter place = .ok last) :
    ∃ next, front.foldlM t.enter place = .ok next ∧ rest.foldlM t.enter next = .ok last := by
  rw [List.foldlM_append] at h
  cases hfront : front.foldlM t.enter place with
  | error e =>
    rw [hfront] at h
    cases h
  | ok next =>
    rw [hfront] at h
    exact ⟨next, rfl, h⟩

/-- The beginning of a text that can be used as a path can be used as one, unless it is empty. -/
theorem IsUsable.of_append {front rest : List Char} (h : IsUsable (front ++ rest))
    (hne : front ≠ []) : IsUsable front := by
  obtain ⟨-, hnul, hshort⟩ := h
  rw [List.contains_append, Bool.or_eq_false_iff] at hnul
  rw [String.ofList_append, String.utf8ByteSize_append] at hshort
  exact ⟨hne, hnul.1, Nat.le_trans (Nat.le_add_right _ _) hshort⟩

/-- Where a path leads, its parent leads to a directory. -/
theorem exists_follow_parent {p parent : Path} {place : Location} (h : t.follow p = .ok place)
    (hparent : p.parent? = some parent) (hne : parent.text ≠ []) :
    ∃ above, t.follow parent = .ok above ∧ t.node? above = some .directory := by
  rcases Path.parent?_cases hparent with rfl | ⟨front, part, rest, hparts, rfl⟩
  · exact absurd rfl hne
  obtain ⟨voids, hvoid, hfront⟩ := Path.exists_dropVoidEnd_append front
  rw [follow, hparts, ← hfront, List.append_assoc, ← List.append_assoc] at h
  obtain ⟨above, habove, hbelow⟩ := exists_foldlM_of_append h
  obtain ⟨next, hnext, hlast⟩ := exists_foldlM_of_append hbelow
  obtain rfl := eq_of_foldlM_enter_void hvoid hnext
  obtain ⟨last, henter, -⟩ := foldlM_enter_cons_iff.mp hlast
  exact ⟨next, habove, directory_of_enter henter⟩

/-- A path that leads somewhere has a parent that leads to a directory. -/
theorem isDirectory_parent_of_locate {place : Location} (h : t.locate path = .ok place)
    {parent : Path} (hparent : (Path.ofText path).parent? = some parent) :
    parent.text = [] ∨ t.isDirectory parent.text = true := by
  by_cases hempty : parent.text = []
  · exact .inl hempty
  obtain ⟨husable, hfollow⟩ := locate_eq_ok_iff.mp h
  obtain ⟨rest, htext⟩ := Path.exists_text_eq_of_parent? hparent
  rw [Path.text_ofText] at htext
  obtain ⟨above, habove, hdirectory⟩ := exists_follow_parent hfollow hparent hempty
  have hsame : t.follow (Path.ofText parent.text) = t.follow parent := by
    rcases Path.ofText_text_parent hparent hempty with hparts | rfl
    · rw [hparts]
    · rfl
  have hlocate : t.locate parent.text = .ok above :=
    locate_eq_ok_iff.mpr ⟨(htext ▸ husable).of_append hempty, hsame.trans habove⟩
  right
  simp only [isDirectory, nodeAt, hlocate, hdirectory]

/-! ## Directories that are there -/

/-- A directory that was made is there. -/
theorem isDirectory_of_createDirectory (hpath : withoutSlashes path = path)
    (h : t.createDirectory path = .ok t') : t'.isDirectory path = true := by
  have hgrows := (adds_createDirectory h).toGrows
  obtain ⟨place, hlocate, hnone, rfl⟩ := exists_put_of_createDirectory h
  rw [hpath] at hlocate
  have hplace : place ≠ [] := ne_nil_of_node? hnone nofun
  have hkept := locate_of_keepsDirectories hgrows.keepsDirectories hlocate
  simp only [isDirectory, nodeAt, hkept, node?_put_self hplace]

/-- A directory that is there is not made. -/
theorem createDirectory_of_isDirectory (hpath : withoutSlashes path = path)
    (h : t.isDirectory path = true) : t.createDirectory path = .error .alreadyExists := by
  unfold isDirectory nodeAt at h
  rw [createDirectory, hpath]
  cases hlocate : t.locate path with
  | error e => simp [hlocate] at h
  | ok place =>
    cases hnode : t.node? place with
    | none => simp [hlocate, hnode] at h
    | some node => simp [hnode]

/-- Nothing is made for a directory that is there. -/
theorem createDirectories_of_isDirectory (hpath : withoutSlashes path = path)
    (h : path = [] ∨ t.isDirectory path = true) (budget : Nat) :
    createDirectories (budget + 1) t path = (.ok (), t) := by
  unfold createDirectories
  split
  · rfl
  next hne =>
  have hdirectory := h.resolve_left hne
  simp only [createDirectory_of_isDirectory hpath hdirectory, hdirectory, if_true]

/-- Where a directory was found or made, one is there. -/
theorem isDirectory_of_ensureDirectory (hpath : withoutSlashes path = path)
    (h : t.ensureDirectory path = (.ok (), t')) : t'.isDirectory path = true := by
  unfold ensureDirectory at h
  split at h
  · next made hcreate =>
    obtain rfl : made = t' := (Prod.mk.inj h).2
    exact isDirectory_of_createDirectory hpath hcreate
  · split at h
    · next hdirectory =>
      obtain rfl : t = t' := (Prod.mk.inj h).2
      exact hdirectory
    · cases h

/-- Where directories were made, the last of them is there. -/
theorem isDirectory_of_createDirectories (hpath : withoutSlashes path = path) {budget : Nat}
    (h : createDirectories budget t path = (.ok (), t')) :
    path = [] ∨ t'.isDirectory path = true := by
  cases budget with
  | zero => cases h
  | succ budget =>
    unfold createDirectories at h
    split at h
    · next hempty => exact .inl hempty
    right
    split at h
    · next made hcreate =>
      obtain rfl : made = t' := (Prod.mk.inj h).2
      exact isDirectory_of_createDirectory hpath hcreate
    · split at h
      · cases h
      · next parent hparent =>
        split at h
        · next made hparents => exact isDirectory_of_ensureDirectory hpath h
        · next failed hfailed => exact absurd h (hfailed t')
    · split at h
      · next hdirectory =>
        obtain rfl : t = t' := (Prod.mk.inj h).2
        exact hdirectory
      · cases h

/-! ## Making directories again -/

/-- A path does not lead anywhere while its parent cannot be made. -/
theorem locate_ne_ok_of_parent {parent : Path}
    (hparent : (Path.ofText path).parent? = some parent) {budget : Nat} {e : FileError}
    (h : createDirectories (budget + 1) t parent.text = (.error e, t')) (place : Location) :
    t.locate path ≠ .ok place := by
  intro hlocate
  have hfound := isDirectory_parent_of_locate hlocate hparent
  rw [createDirectories_of_isDirectory (Path.withoutSlashes_text_parent hparent) hfound] at h
  cases h

/-- Nothing is made at a path that leads nowhere. -/
theorem createDirectory_of_locate (hpath : withoutSlashes path = path)
    (h : ∀ place, t.locate path ≠ .ok place) :
    (∃ e, t.createDirectory path = .error e) ∧ t.isDirectory path = false := by
  cases hlocate : t.locate path with
  | error e => simp [createDirectory, isDirectory, nodeAt, hpath, hlocate]
  | ok place => exact absurd hlocate (h place)

/-- Making a directory fails without a change where it cannot be made and nothing is made above
it. -/
theorem createDirectories_eq_error (hne : path ≠ []) {e : FileError}
    (hcreate : t.createDirectory path = .error e) (hdirectory : t.isDirectory path = false)
    {budget : Nat}
    (hparents : e = .notFound → ∀ parent, (Path.ofText path).parent? = some parent →
      (createDirectories budget t parent.text).2 = t) :
    ∃ e', createDirectories (budget + 1) t path = (.error e', t) := by
  have hensure : t.ensureDirectory path = (.error e, t) := by
    simp [ensureDirectory, hcreate, hdirectory]
  unfold createDirectories
  rw [if_neg hne, hcreate]
  cases e with
  | notFound =>
    cases hparent : (Path.ofText path).parent? with
    | none => exact ⟨.notFound, rfl⟩
    | some parent =>
      have hsame := hparents rfl parent hparent
      dsimp only
      generalize createDirectories budget t parent.text = made at hsame ⊢
      obtain ⟨result, t'⟩ := made
      obtain rfl : t' = t := hsame
      cases result with
      | error e' => exact ⟨e', rfl⟩
      | ok => exact ⟨.notFound, hensure⟩
  | _ => simp [hdirectory]

/-- Finding or making a directory fails without a change. -/
theorem ensureDirectory_eq_error {e : FileError} (h : t.ensureDirectory path = (.error e, t')) :
    t' = t ∧ t.createDirectory path = .error e ∧ t.isDirectory path = false := by
  unfold ensureDirectory at h
  split at h
  · cases h
  next hcreate =>
  split at h
  · cases h
  next hdirectory =>
  obtain ⟨herror, rfl⟩ := Prod.mk.inj h
  rw [hcreate, Except.error.inj herror]
  exact ⟨rfl, rfl, Bool.eq_false_iff.mpr hdirectory⟩

/-- Making directories after a failure fails again and changes nothing. -/
theorem createDirectories_again (hpath : withoutSlashes path = path) {budget : Nat} {e : FileError}
    (h : createDirectories budget t path = (.error e, t')) :
    ∃ e', createDirectories budget t' path = (.error e', t') := by
  induction budget generalizing t t' path e with
  | zero => exact ⟨.notFound, rfl⟩
  | succ budget ih =>
    have hmake := h
    unfold createDirectories at h
    split at h
    · cases h
    next hne =>
    split at h
    · cases h
    · next hcreate =>
      split at h
      · obtain rfl : t = t' := (Prod.mk.inj h).2
        exact ⟨e, hmake⟩
      next parent hparent =>
      have htrimmed := Path.withoutSlashes_text_parent hparent
      split at h
      · -- The directories above are there now, and the last one cannot be made.
        next made hparents =>
        obtain ⟨rfl, hcreate', hdirectory⟩ := ensureDirectory_eq_error h
        refine createDirectories_eq_error hne hcreate' hdirectory ?_
        rintro - other hother
        obtain rfl : parent = other := Option.some.inj (hparent.symm.trans hother)
        cases budget with
        | zero => cases hparents
        | succ budget =>
          have hfound := isDirectory_of_createDirectories htrimmed hparents
          rw [createDirectories_of_isDirectory htrimmed hfound]
      · -- Nothing is there above the path, before and after.
        next hfailed =>
        obtain ⟨e', hagain⟩ := ih htrimmed h
        cases budget with
        | zero =>
          obtain rfl : t = t' := (Prod.mk.inj h).2
          exact ⟨e, hmake⟩
        | succ budget =>
          have hlocate := locate_ne_ok_of_parent hparent hagain
          obtain ⟨⟨e₁, hcreate'⟩, hdirectory⟩ := createDirectory_of_locate hpath hlocate
          refine createDirectories_eq_error hne hcreate' hdirectory ?_
          rintro - other hother
          obtain rfl : parent = other := Option.some.inj (hparent.symm.trans hother)
          rw [hagain]
    · split at h
      · cases h
      · obtain rfl : t = t' := (Prod.mk.inj h).2
        exact ⟨e, hmake⟩

/-! ## The directories above a path -/

/-- A directory is something. -/
theorem contains_of_isDirectory (h : t.isDirectory path = true) : t.contains path = true := by
  unfold isDirectory at h
  unfold contains
  split at h
  · next hnode => rw [hnode]
  · cases h

/-- Where the directories above a path are made, they are there afterwards. -/
theorem createParents_again (h : t.createParents path = (.ok (), t')) :
    t'.createParents path = (.ok (), t') := by
  unfold createParents at h ⊢
  split at h
  · obtain rfl : t = t' := (Prod.mk.inj h).2
    rfl
  next parent hparent =>
  have hthere : parent.text = [] ∨ t'.contains parent.text = true := by
    split at h
    · next hthere =>
      obtain rfl : t = t' := (Prod.mk.inj h).2
      exact hthere
    · have htrimmed := Path.withoutSlashes_text_parent hparent
      exact (isDirectory_of_createDirectories htrimmed h).imp_right contains_of_isDirectory
  rw [if_pos hthere]

/-- Where the directories above a path cannot be made, its parent cannot be made afterwards
either. -/
theorem exists_parent_of_createParents {e : FileError}
    (h : t.createParents path = (.error e, t')) :
    ∃ parent, (Path.ofText path).parent? = some parent ∧
      ∃ e', createDirectories (parent.text.length + 1) t' parent.text = (.error e', t') := by
  unfold createParents at h
  split at h
  · cases h
  next parent hparent =>
  split at h
  · cases h
  exact ⟨parent, hparent, createDirectories_again (Path.withoutSlashes_text_parent hparent) h⟩

/-- Where the directories above a path cannot be made, trying it again changes nothing. -/
theorem createParents_after_error {e : FileError} (h : t.createParents path = (.error e, t')) :
    (t'.createParents path).2 = t' := by
  obtain ⟨parent, hparent, e', hagain⟩ := exists_parent_of_createParents h
  simp only [createParents, hparent, hagain]
  split <;> rfl

/-- Where the directories above a path cannot be made, the path leads nowhere. -/
theorem locate_ne_ok_of_createParents {e : FileError}
    (h : t.createParents path = (.error e, t')) (place : Location) :
    t'.locate path ≠ .ok place := by
  obtain ⟨parent, hparent, e', hagain⟩ := exists_parent_of_createParents h
  exact locate_ne_ok_of_parent hparent hagain place

end FileTree

end PhasedInduction
