import Mathlib.Data.List.TakeWhile
import PhasedInduction.Path

/-!
# Texts and steps of paths

A path that is put together from parts is found again in its text, unless its first part would
be taken for an anchor.  So what a changed text means is known from its parts: the steps before
the last part stay, and the new last part adds its own step, or none if it is void.

Main results:

- Theorem {lit}`Path.ofText_text`: a path that comes from a text is found again in its text.
- Theorem {lit}`Path.lastPart?_eq_some_iff`: the last part that is not void, with its surroundings.
- Theorem {lit}`Path.LeadsTo.exists_step`: the last part gives the last step.
- Theorem {lit}`Path.ending_cases`: how a path text can end.
-/

namespace PhasedInduction

namespace Path

/-! ## Void parts -/

theorem isVoid_iff {part : List Char} : isVoid part = true ↔ part = [] ∨ part = ['.'] := by
  simp [isVoid]

theorem ne_nil_of_isVoid {part : List Char} (h : isVoid part = false) : part ≠ [] := by
  rintro rfl
  cases h

theorem ne_dot_of_isVoid {part : List Char} (h : isVoid part = false) : part ≠ ['.'] := by
  rintro rfl
  cases h

/-- A part with more text behind it is not void. -/
theorem isVoid_append {part added : List Char} (hpart : part ≠ []) (hadded : added ≠ []) :
    isVoid (part ++ added) = false := by
  rw [Bool.eq_false_iff, ne_eq, isVoid_iff]
  rintro (hnil | hdot)
  · exact hpart (List.append_eq_nil_iff.mp hnil).1
  · rcases List.append_eq_singleton_iff.mp hdot with ⟨hnil, -⟩ | ⟨-, hnil⟩
    · exact hpart hnil
    · exact hadded hnil

/-- What ends a void part is void. -/
theorem isVoid_of_suffix {part void : List Char} (h : part <:+ void)
    (hvoid : isVoid void = true) : isVoid part = true := by
  rcases isVoid_iff.mp hvoid with rfl | rfl
  · exact isVoid_iff.mpr (.inl (List.suffix_nil.mp h))
  · rcases List.suffix_cons_iff.mp h with rfl | hnil
    · rfl
    · exact isVoid_iff.mpr (.inl (List.suffix_nil.mp hnil))

/-- Dropping the void parts at the end leaves a part of the list. -/
theorem exists_dropVoidEnd_append (parts : List (List Char)) :
    ∃ voids, (∀ part ∈ voids, isVoid part = true) ∧ dropVoidEnd parts ++ voids = parts := by
  refine ⟨(parts.reverse.takeWhile isVoid).reverse, ?_, ?_⟩
  · intro part hpart
    exact List.mem_takeWhile_imp (List.mem_reverse.mp hpart)
  · rw [dropVoidEnd, ← List.reverse_append, List.takeWhile_append_dropWhile, List.reverse_reverse]

/-- The last part that is left is not void. -/
theorem isVoid_getLast?_dropVoidEnd {parts : List (List Char)} {part : List Char}
    (h : (dropVoidEnd parts).getLast? = some part) : isVoid part = false := by
  have hhead := List.head?_dropWhile_not isVoid parts.reverse
  rw [dropVoidEnd, List.getLast?_reverse] at h
  rw [h] at hhead
  exact hhead

/-- Void parts at the end are dropped with those before them. -/
theorem dropVoidEnd_append_void (front : List (List Char)) {voids : List (List Char)}
    (h : ∀ part ∈ voids, isVoid part = true) :
    dropVoidEnd (front ++ voids) = dropVoidEnd front := by
  rw [dropVoidEnd, List.reverse_append,
    List.dropWhile_append_of_pos fun part hpart => h part (List.mem_reverse.mp hpart), dropVoidEnd]

/-! ## Steps -/

/-- The part that a step stands for.  The root stands for none. -/
def Component.text : Component → List Char
  | .root => []
  | .here => ['.']
  | .up => ['.', '.']
  | .name text => text

/-- Void parts stand for no step. -/
theorem Component.ofPart?_eq_none_iff {part : List Char} :
    ofPart? part = none ↔ isVoid part = true := by
  unfold ofPart?
  split
  · next h => simp [h]
  · next h =>
    split <;> simpa using h

/-- A step stands for the part that it comes from. -/
theorem Component.text_of_ofPart? {part : List Char} {step : Component}
    (h : ofPart? part = some step) : step.text = part := by
  unfold ofPart? at h
  split at h
  · cases h
  · split at h
    · next hup =>
      cases h
      exact hup.symm
    · cases h
      rfl

/-- Every other part stands for a step. -/
theorem Component.exists_ofPart?_of_isVoid {part : List Char} (h : isVoid part = false) :
    ∃ step, ofPart? part = some step := by
  cases hstep : ofPart? part with
  | some step => exact ⟨step, rfl⟩
  | none =>
    rw [ofPart?_eq_none_iff, h] at hstep
    cases hstep

/-- A part is known from its step. -/
theorem Component.ofPart?_injective {part other : List Char} {step : Component}
    (hpart : ofPart? part = some step) (hother : ofPart? other = some step) : part = other :=
  (text_of_ofPart? hpart).symm.trans (text_of_ofPart? hother)

/-- The steps of further parts come behind those of the first. -/
theorem components_append (anchor : Anchor) (front rest : List (List Char)) :
    components ⟨anchor, front ++ rest⟩ =
      components ⟨anchor, front⟩ ++ rest.filterMap Component.ofPart? := by
  simp [components]

/-- The last part adds its step, if it is one. -/
theorem components_append_singleton (anchor : Anchor) (front : List (List Char))
    (part : List Char) :
    components ⟨anchor, front ++ [part]⟩ =
      components ⟨anchor, front⟩ ++ (Component.ofPart? part).toList := by
  rw [components_append]
  cases h : Component.ofPart? part <;> simp [h]

/-- Void parts add no steps. -/
theorem components_append_void (anchor : Anchor) (front : List (List Char))
    {voids : List (List Char)} (h : ∀ part ∈ voids, isVoid part = true) :
    components ⟨anchor, front ++ voids⟩ = components ⟨anchor, front⟩ := by
  have hnone : voids.filterMap Component.ofPart? = [] :=
    List.filterMap_eq_nil_iff.mpr fun part hpart =>
      Component.ofPart?_eq_none_iff.mpr (h part hpart)
  rw [components_append, hnone, List.append_nil]

/-! ## Last parts -/

/-- The last part that is not void stands before void parts only. -/
theorem lastPart?_eq_some_iff {p : Path} {front rest : List (List Char)} {part : List Char} :
    p.lastPart? = some (front, part, rest) ↔
      p.parts = front ++ part :: rest ∧ isVoid part = false ∧
        ∀ other ∈ rest, isVoid other = true := by
  constructor
  · intro h
    refine ⟨parts_eq_of_lastPart? h, ?_, ?_⟩
    · unfold lastPart? at h
      split at h
      · cases h
      · next q qs hq =>
        have hhead := List.head?_dropWhile_not isVoid p.parts.reverse
        cases h
        rwa [hq] at hhead
    · unfold lastPart? at h
      split at h
      · cases h
      · cases h
        intro other hother
        exact List.mem_takeWhile_imp (List.mem_reverse.mp hother)
  · rintro ⟨hparts, hpart, hrest⟩
    have hvoid : ∀ other ∈ rest.reverse, isVoid other = true :=
      fun other hother => hrest other (List.mem_reverse.mp hother)
    have hdrop : p.parts.reverse.dropWhile isVoid = part :: front.reverse := by
      rw [hparts, List.reverse_append, List.reverse_cons, List.append_assoc,
        List.dropWhile_append_of_pos hvoid]
      simp [hpart]
    have htake : p.parts.reverse.takeWhile isVoid = rest.reverse := by
      rw [hparts, List.reverse_append, List.reverse_cons, List.append_assoc,
        List.takeWhile_append_of_pos hvoid]
      simp [hpart]
    simp [lastPart?, hdrop, htake]

/-- A path without a last part has void parts only. -/
theorem isVoid_of_lastPart? {p : Path} (h : p.lastPart? = none) :
    ∀ part ∈ p.parts, isVoid part = true := by
  unfold lastPart? at h
  split at h
  · next hdrop =>
    intro part hpart
    exact List.dropWhile_eq_nil_iff.mp hdrop part (List.mem_reverse.mpr hpart)
  · cases h

/-- A file name is the last part, and not two dots. -/
theorem fileName?_eq_some_iff {p : Path} {name : List Char} :
    p.fileName? = some name ↔
      name ≠ ['.', '.'] ∧ ∃ front rest, p.lastPart? = some (front, name, rest) := by
  unfold fileName?
  cases hlast : p.lastPart? with
  | none => simp
  | some parts =>
    obtain ⟨front, part, rest⟩ := parts
    by_cases hup : part = ['.', '.']
    · simp only [hup, if_true]
      constructor
      · intro h
        cases h
      · rintro ⟨hname, _, _, h⟩
        cases h
        exact absurd rfl hname
    · simp only [hup, if_false]
      constructor
      · intro h
        cases h
        exact ⟨hup, front, rest, rfl⟩
      · rintro ⟨-, _, _, h⟩
        cases h
        rfl

/-! ## Texts that are taken apart again -/

/-- A path that comes from a text: no part has a slash, and none that begins the text would be
taken for an anchor. -/
structure IsOfText (p : Path) : Prop where
  not_mem : ∀ part ∈ p.parts, '/' ∉ part
  parts_ne : p.anchor ≠ .here → p.parts ≠ []
  not_root : p.anchor = .none → ∀ part rest, p.parts ≠ [] :: part :: rest
  not_here : p.anchor = .none → ∀ rest, p.parts ≠ ['.'] :: rest

/-- No part of a path text holds a slash. -/
theorem not_mem_of_mem_parts {path part : List Char} (h : part ∈ (ofText path).parts) :
    '/' ∉ part := by
  refine @Text.not_mem_of_mem_pieces '/' path part ?_
  rcases ofText_cases path with ⟨first, rest, hpieces, hpath⟩ | ⟨rest, hpieces, hpath⟩ |
    ⟨-, -, hpath⟩
  · rw [hpath] at h
    rw [hpieces]
    exact List.mem_cons_of_mem _ h
  · rw [hpath] at h
    rw [hpieces]
    exact List.mem_cons_of_mem _ h
  · rw [hpath] at h
    exact h

/-- No file name of a path text holds a slash. -/
theorem not_mem_of_fileName? {path name : List Char} (h : (ofText path).fileName? = some name) :
    '/' ∉ name := by
  obtain ⟨-, front, rest, hlast⟩ := fileName?_eq_some_iff.mp h
  refine @not_mem_of_mem_parts path name ?_
  rw [parts_eq_of_lastPart? hlast]
  exact List.mem_append_right front List.mem_cons_self

/-- What a text is taken apart into comes from a text. -/
theorem isOfText_ofText (path : List Char) : (ofText path).IsOfText := by
  have hslash : ∀ part ∈ (ofText path).parts, '/' ∉ part := fun part => not_mem_of_mem_parts
  rcases ofText_cases path with ⟨part, rest, -, hpath⟩ | ⟨rest, -, hpath⟩ |
    ⟨hroot, hhere, hpath⟩
  · rw [hpath] at hslash ⊢
    exact ⟨hslash, fun _ => List.cons_ne_nil _ _, nofun, nofun⟩
  · rw [hpath] at hslash ⊢
    exact ⟨hslash, fun h => absurd rfl h, nofun, nofun⟩
  · rw [hpath] at hslash ⊢
    exact ⟨hslash, fun _ => Text.pieces_ne_nil '/' path, fun _ => hroot, fun _ => hhere⟩

/-- A path that comes from a text is found again in its text. -/
theorem ofText_text {p : Path} (h : p.IsOfText) : ofText p.text = p := by
  obtain ⟨anchor, parts⟩ := p
  cases anchor with
  | root =>
    obtain ⟨part, rest, rfl⟩ := List.exists_cons_of_ne_nil (h.parts_ne (by simp))
    have hpieces := Text.pieces_join (List.cons_ne_nil part rest) h.not_mem
    simp [ofText, text, Text.pieces, hpieces]
  | here =>
    cases parts with
    | nil => rfl
    | cons part rest =>
      have hpieces := Text.pieces_join (List.cons_ne_nil part rest) h.not_mem
      simp [ofText, text, Text.pieces, hpieces]
  | none =>
    have hpieces := Text.pieces_join (h.parts_ne (by simp)) h.not_mem
    rcases ofText_cases (text ⟨.none, parts⟩) with ⟨part, rest, hp, -⟩ | ⟨rest, hp, -⟩ |
      ⟨-, -, hp⟩
    · rw [text, hpieces] at hp
      exact absurd hp (h.not_root rfl part rest)
    · rw [text, hpieces] at hp
      exact absurd hp (h.not_here rfl rest)
    · rw [hp, text, hpieces]

/-- The first parts of a path that comes from a text come from one themselves. -/
theorem IsOfText.of_append {p : Path} (h : p.IsOfText) {front rest : List (List Char)}
    (hparts : p.parts = front ++ rest) (hne : p.anchor ≠ .here → front ≠ []) :
    IsOfText ⟨p.anchor, front⟩ := by
  constructor
  · intro part hpart
    exact h.not_mem part (hparts ▸ List.mem_append_left rest hpart)
  · exact hne
  · rintro hanchor part others rfl
    exact h.not_root hanchor part (others ++ rest) hparts
  · rintro hanchor others rfl
    exact h.not_here hanchor (others ++ rest) hparts

/-- A path that comes from a text does so with other parts from some place on, unless it is then
taken for one with an anchor. -/
theorem IsOfText.withRest {p : Path} (h : p.IsOfText) {front rest others : List (List Char)}
    {part new : List Char} (hparts : p.parts = front ++ part :: rest) (hnew : '/' ∉ new)
    (hothers : ∀ other ∈ others, '/' ∉ other)
    (hdot : p.anchor = .none → front = [] → new ≠ ['.'])
    (hnil : p.anchor = .none → front = [] → others ≠ [] → new ≠ []) :
    IsOfText ⟨p.anchor, front ++ new :: others⟩ := by
  constructor
  · intro other hother
    rcases List.mem_append.mp hother with hfront | hlast
    · exact h.not_mem other (hparts ▸ List.mem_append_left _ hfront)
    · rcases List.mem_cons.mp hlast with rfl | hlast
      · exact hnew
      · exact hothers other hlast
  · exact fun _ => List.append_ne_nil_of_right_ne_nil front (List.cons_ne_nil new others)
  · intro hanchor other behind hroot
    cases front with
    | nil =>
      obtain ⟨hfirst, hmore⟩ := List.cons.inj hroot
      exact hnil hanchor rfl (hmore ▸ List.cons_ne_nil other behind) hfirst
    | cons first more =>
      cases (List.cons.inj hroot).1
      obtain ⟨second, behind, hbehind⟩ : ∃ second behind, more ++ part :: rest = second :: behind :=
        List.exists_cons_of_ne_nil (List.append_ne_nil_of_right_ne_nil _ (List.cons_ne_nil _ _))
      exact h.not_root hanchor second behind (by rw [hparts, List.cons_append, hbehind])
  · intro hanchor behind hhere
    cases front with
    | nil => exact hdot hanchor rfl (List.cons.inj hhere).1
    | cons first more =>
      cases (List.cons.inj hhere).1
      exact h.not_here hanchor (more ++ part :: rest) hparts

/-- A path that comes from a text does so with another last part, unless it is then a single
dot. -/
theorem IsOfText.withLast {p : Path} (h : p.IsOfText) {front rest : List (List Char)}
    {part new : List Char} (hparts : p.parts = front ++ part :: rest) (hnew : '/' ∉ new)
    (hdot : p.anchor = .none → front = [] → new ≠ ['.']) :
    IsOfText ⟨p.anchor, front ++ [new]⟩ :=
  h.withRest hparts hnew nofun hdot fun _ _ hne => absurd rfl hne

/-- A further part stands behind a slash. -/
theorem text_append_singleton (anchor : Anchor) {parts : List (List Char)} (hne : parts ≠ [])
    (added : List Char) :
    text ⟨anchor, parts ++ [added]⟩ = text ⟨anchor, parts⟩ ++ '/' :: added := by
  have hjoin := @Text.join_append '/' parts [added] hne (List.cons_ne_nil added [])
  obtain ⟨first, more, rfl⟩ := List.exists_cons_of_ne_nil hne
  cases anchor <;> simpa [text, Text.join] using hjoin

/-! ## Other last parts -/

/-- The last part of a path that is not void stands behind these parts, perhaps with void parts
between. -/
def LeadsTo (p : Path) (kept : List (List Char)) (part : List Char) : Prop :=
  ∃ voids rest, p.lastPart? = some (kept ++ voids, part, rest) ∧
    ∀ other ∈ voids, isVoid other = true

section

variable {p : Path} {kept front rest : List (List Char)} {part new : List Char}

theorem leadsTo_of_lastPart? (h : p.lastPart? = some (front, part, rest)) :
    p.LeadsTo front part :=
  ⟨[], rest, by rw [h, List.append_nil], nofun⟩

theorem leadsTo_dropVoidEnd (h : p.lastPart? = some (front, part, rest)) :
    p.LeadsTo (dropVoidEnd front) part := by
  obtain ⟨voids, hvoid, hfront⟩ := exists_dropVoidEnd_append front
  exact ⟨voids, rest, by rw [h, hfront], hvoid⟩

/-- The last part gives the last step. -/
theorem LeadsTo.exists_step (h : p.LeadsTo kept part) :
    ∃ step, Component.ofPart? part = some step ∧
      p.components = components ⟨p.anchor, kept⟩ ++ [step] := by
  obtain ⟨voids, rest, hlast, hvoid⟩ := h
  obtain ⟨hparts, hpart, hrest⟩ := lastPart?_eq_some_iff.mp hlast
  obtain ⟨step, hstep⟩ := Component.exists_ofPart?_of_isVoid hpart
  refine ⟨step, hstep, ?_⟩
  have hsteps := components_append_void p.anchor (kept ++ voids ++ [part]) hrest
  rw [components_append_singleton, hstep, components_append_void p.anchor kept hvoid,
    List.append_assoc, List.singleton_append, ← hparts] at hsteps
  exact hsteps

/-- With another last part, the path has the same parent. -/
theorem LeadsTo.parent?_eq (h : p.LeadsTo kept part) (hnew : isVoid new = false) :
    parent? ⟨p.anchor, kept ++ [new]⟩ = p.parent? := by
  obtain ⟨voids, rest, hlast, hvoid⟩ := h
  have hnewlast : lastPart? ⟨p.anchor, kept ++ [new]⟩ = some (kept, new, []) :=
    lastPart?_eq_some_iff.mpr ⟨rfl, hnew, nofun⟩
  simp only [parent?, hlast, hnewlast, dropVoidEnd_append_void kept hvoid]

/-- A last part that is neither void nor two dots is the file name. -/
theorem fileName?_withLast (anchor : Anchor) (hnew : isVoid new = false) (hup : new ≠ ['.', '.']) :
    fileName? ⟨anchor, kept ++ [new]⟩ = some new := by
  have hlast : lastPart? ⟨anchor, kept ++ [new]⟩ = some (kept, new, []) :=
    lastPart?_eq_some_iff.mpr ⟨rfl, hnew, nofun⟩
  exact fileName?_eq_some_iff.mpr ⟨hup, kept, [], hlast⟩

/-- With another last part, the path still comes from a text, unless it is then a single dot. -/
theorem LeadsTo.isOfText (h : p.LeadsTo kept part) (hp : p.IsOfText) (hnew : '/' ∉ new)
    (hdot : p.anchor = .none → kept = [] → new ≠ ['.']) :
    IsOfText ⟨p.anchor, kept ++ [new]⟩ := by
  obtain ⟨voids, rest, hlast, -⟩ := h
  have hparts := parts_eq_of_lastPart? hlast
  obtain ⟨first, more, hmore⟩ : ∃ first more, voids ++ part :: rest = first :: more :=
    List.exists_cons_of_ne_nil (List.append_ne_nil_of_right_ne_nil _ (List.cons_ne_nil _ _))
  rw [List.append_assoc, hmore] at hparts
  exact hp.withLast hparts hnew hdot

end

/-- A text behind a path text goes to its last part. -/
theorem text_append {p : Path} {front : List (List Char)} {part : List Char}
    (h : p.parts = front ++ [part]) (added : List Char) :
    p.text ++ added = text ⟨p.anchor, front ++ [part ++ added]⟩ := by
  have hnew := @text_eq_of_parts ⟨p.anchor, front ++ [part ++ added]⟩ front [] _ rfl
  rw [text_eq_of_parts h, hnew]
  simp

/-- A text behind the directory text of a path is a new last part. -/
theorem directoryText_append {p : Path} {front rest : List (List Char)} {part : List Char}
    (h : p.lastPart? = some (front, part, rest)) (new : List Char) :
    p.directoryText ++ new = text ⟨p.anchor, front ++ [new]⟩ := by
  rw [@text_eq_of_parts ⟨p.anchor, front ++ [new]⟩ front [] new rfl]
  simp [directoryText, h]

/-! ## Texts cut at the end -/

/-- What begins the text of void parts is the text of void parts. -/
theorem exists_void_of_prefix {voids : List (List Char)}
    (hvoid : ∀ part ∈ voids, isVoid part = true) {begun : List Char}
    (h : begun <+: voids.flatMap ('/' :: ·)) :
    ∃ fewer : List (List Char),
      (∀ part ∈ fewer, isVoid part = true) ∧ begun = fewer.flatMap ('/' :: ·) := by
  induction voids generalizing begun with
  | nil => exact ⟨[], nofun, List.prefix_nil.mp h⟩
  | cons part voids ih =>
    rw [List.flatMap_cons, List.cons_append] at h
    rcases List.prefix_cons_iff.mp h with rfl | ⟨behind, rfl, hbehind⟩
    · exact ⟨[], nofun, rfl⟩
    have hrest : ∀ other ∈ voids, isVoid other = true :=
      fun other hother => hvoid other (List.mem_cons_of_mem part hother)
    rcases isVoid_iff.mp (hvoid part List.mem_cons_self) with rfl | rfl
    · obtain ⟨fewer, hfewer, rfl⟩ := ih hrest hbehind
      exact ⟨[] :: fewer, List.forall_mem_cons.mpr ⟨rfl, hfewer⟩, rfl⟩
    · rcases List.prefix_cons_iff.mp hbehind with rfl | ⟨more, rfl, hmore⟩
      · exact ⟨[[]], List.forall_mem_cons.mpr ⟨rfl, nofun⟩, rfl⟩
      · obtain ⟨fewer, hfewer, rfl⟩ := ih hrest hmore
        exact ⟨['.'] :: fewer, List.forall_mem_cons.mpr ⟨rfl, hfewer⟩, rfl⟩

/-- A path text with fewer characters behind a part that is not void has that part, or what is
left of it, as its last one. -/
theorem ofText_of_prefix {path : List Char} {front rest : List (List Char)}
    {part new behind : List Char} (hlast : (ofText path).lastPart? = some (front, part, rest))
    (hnew : isVoid new = false) (hslash : '/' ∉ new)
    (hbehind : behind <+: rest.flatMap ('/' :: ·)) :
    ∃ fewer, (∀ other ∈ fewer, isVoid other = true) ∧
      ofText ((ofText path).directoryText ++ new ++ behind) =
        ⟨(ofText path).anchor, front ++ new :: fewer⟩ := by
  obtain ⟨hparts, -, hrest⟩ := lastPart?_eq_some_iff.mp hlast
  obtain ⟨fewer, hfewer, rfl⟩ := exists_void_of_prefix hrest hbehind
  refine ⟨fewer, hfewer, ?_⟩
  have hnoslash : ∀ other ∈ fewer, '/' ∉ other := by
    intro other hother
    rcases isVoid_iff.mp (hfewer other hother) with rfl | rfl <;> decide
  have hof : IsOfText ⟨(ofText path).anchor, front ++ new :: fewer⟩ :=
    (isOfText_ofText path).withRest hparts hslash hnoslash (fun _ _ => ne_dot_of_isVoid hnew)
      fun _ _ _ => ne_nil_of_isVoid hnew
  have htext : (ofText path).directoryText ++ new ++ fewer.flatMap ('/' :: ·) =
      text ⟨(ofText path).anchor, front ++ new :: fewer⟩ := by
    rw [@text_eq_of_parts ⟨(ofText path).anchor, front ++ new :: fewer⟩ front fewer new rfl,
      directoryText, hlast]
  rw [htext, ofText_text hof]

/-! ## Ends of path texts -/

/-- The void part that a path text ends in, if any: behind a slash at the end stands the empty
part, and a slash and a dot at the end leave the dot. -/
def ending (p : Path) : Option (List Char) := p.parts.getLast?.filter isVoid

/-- A path text is an anchor alone, or it ends in a part that is not void, or in a void one. -/
theorem ending_cases (p : Path) :
    (p.parts = [] ∧ p.ending = none) ∨
      (∃ front part, p.parts = front ++ [part] ∧ isVoid part = false ∧ p.ending = none) ∨
      ∃ front part, p.parts = front ++ [part] ∧ isVoid part = true ∧ p.ending = some part := by
  rcases List.eq_nil_or_concat p.parts with hnil | ⟨front, part, hparts⟩
  · exact .inl ⟨hnil, by simp [ending, hnil]⟩
  · rw [List.concat_eq_append] at hparts
    cases hvoid : isVoid part with
    | false => exact .inr (.inl ⟨front, part, hparts, hvoid, by simp [ending, hparts, hvoid]⟩)
    | true => exact .inr (.inr ⟨front, part, hparts, hvoid, by simp [ending, hparts, hvoid]⟩)

/-- Behind the last part of a path stand void parts, unless the text ends in that part. -/
theorem ending_eq_none_iff {p : Path} {front rest : List (List Char)} {part : List Char}
    (h : p.lastPart? = some (front, part, rest)) : p.ending = none ↔ rest = [] := by
  obtain ⟨hparts, hpart, hrest⟩ := lastPart?_eq_some_iff.mp h
  rcases List.eq_nil_or_concat rest with rfl | ⟨others, last, rfl⟩
  · simp [ending, hparts, hpart]
  · rw [List.concat_eq_append] at hparts hrest ⊢
    have hlast : isVoid last = true := hrest last (by simp)
    have hend : p.parts.getLast? = some last := by
      rw [hparts, ← List.cons_append, ← List.append_assoc, List.getLast?_concat]
    simp [ending, hend, hlast]

/-- The text behind the last part is that of the void parts. -/
theorem voidText_eq_nil_iff {p : Path} {front rest : List (List Char)} {part : List Char}
    (h : p.lastPart? = some (front, part, rest)) : p.voidText = [] ↔ p.ending = none := by
  rw [ending_eq_none_iff h]
  cases rest <;> simp [voidText, h]

/-- The text of a path ends in its file name unless it ends in a void part. -/
theorem fileName?_suffix_iff {path name : List Char} (h : (ofText path).fileName? = some name) :
    name <:+ path ↔ (ofText path).ending = none := by
  obtain ⟨-, front, rest, hlast⟩ := fileName?_eq_some_iff.mp h
  have htext := text_eq_of_fileName? h
  rw [text_ofText] at htext
  constructor
  · intro hsuffix
    rw [ending_eq_none_iff hlast]
    rcases List.eq_nil_or_concat rest with rfl | ⟨others, void, rfl⟩
    · rfl
    -- Otherwise the text ends in a slash and a void part.
    exfalso
    rw [List.concat_eq_append] at hlast
    obtain ⟨-, hname, hrest⟩ := lastPart?_eq_some_iff.mp hlast
    have hvoid : isVoid void = true := hrest void (by simp)
    have hslash : '/' ∉ name := not_mem_of_fileName? h
    have hend : '/' :: void <:+ path := by
      have hvoids : (ofText path).voidText = others.flatMap ('/' :: ·) ++ '/' :: void := by
        simp [voidText, hlast]
      rw [htext, hvoids, ← List.append_assoc]
      exact List.suffix_append _ _
    rcases List.suffix_or_suffix_of_suffix hsuffix hend with hin | hin
    · rcases List.suffix_cons_iff.mp hin with rfl | hin
      · exact hslash List.mem_cons_self
      · rw [isVoid_of_suffix hin hvoid] at hname
        cases hname
    · exact hslash (hin.subset List.mem_cons_self)
  · intro hnone
    rw [(voidText_eq_nil_iff hlast).mpr hnone, List.append_nil] at htext
    exact ⟨_, htext.symm⟩

/-! ## Parents -/

/-- The parent of a path has no steps, or the steps before the last one. -/
theorem parent?_cases {p parent : Path} (h : p.parent? = some parent) :
    parent = ⟨.none, []⟩ ∨
      ∃ front part rest, p.parts = front ++ part :: rest ∧
        parent = ⟨p.anchor, dropVoidEnd front⟩ := by
  unfold parent? at h
  split at h
  · next front part rest hlast =>
    exact .inr ⟨front, part, rest, parts_eq_of_lastPart? hlast, (Option.some.inj h).symm⟩
  · split at h
    · exact .inl (Option.some.inj h).symm
    · cases h

/-- The text of a parent begins the text of the path. -/
theorem exists_text_eq_of_parent? {p parent : Path} (h : p.parent? = some parent) :
    ∃ rest, p.text = parent.text ++ rest := by
  rcases parent?_cases h with rfl | ⟨front, part, rest, hparts, rfl⟩
  · exact ⟨p.text, rfl⟩
  obtain ⟨voids, -, hfront⟩ := exists_dropVoidEnd_append front
  generalize dropVoidEnd front = kept at hfront
  obtain ⟨first, more, hmore⟩ : ∃ first more, voids ++ part :: rest = first :: more :=
    List.exists_cons_of_ne_nil (List.append_ne_nil_of_right_ne_nil _ (List.cons_ne_nil _ _))
  have hsplit : p.parts = kept ++ first :: more := by
    rw [hparts, ← hfront, List.append_assoc, hmore]
  cases kept with
  | nil =>
    cases hanchor : p.anchor with
    | root => exact ⟨Text.join '/' (first :: more), by simp [text, hanchor, hsplit, Text.join]⟩
    | here =>
      exact ⟨'/' :: Text.join '/' (first :: more), by simp [text, hanchor, hsplit]⟩
    | none => exact ⟨Text.join '/' (first :: more), by simp [text, hanchor, hsplit, Text.join]⟩
  | cons q qs =>
    have hjoin := @Text.join_append '/' _ _ (List.cons_ne_nil q qs) (List.cons_ne_nil first more)
    refine ⟨'/' :: Text.join '/' (first :: more), ?_⟩
    cases hanchor : p.anchor with
    | root => simp [text, hanchor, hsplit, ← hjoin]
    | here => simp [text, hanchor, hsplit, ← hjoin]
    | none => simp [text, hanchor, hsplit, ← hjoin]

/-- The parent of a path text comes from a text itself, unless it is empty or only a root. -/
theorem isOfText_parent {path : List Char} {parent : Path}
    (h : (ofText path).parent? = some parent) (hne : parent.text ≠ []) :
    parent.IsOfText ∨ parent = ⟨.root, []⟩ := by
  rcases parent?_cases h with rfl | ⟨front, part, rest, hparts, rfl⟩
  · exact absurd rfl hne
  obtain ⟨voids, -, hfront⟩ := exists_dropVoidEnd_append front
  have hsplit : (ofText path).parts = dropVoidEnd front ++ (voids ++ part :: rest) := by
    rw [hparts, ← List.append_assoc, hfront]
  cases hkept : dropVoidEnd front with
  | cons first more =>
    left
    rw [← hkept]
    refine (isOfText_ofText path).of_append hsplit fun _ => ?_
    exact hkept ▸ List.cons_ne_nil first more
  | nil =>
    cases hanchor : (ofText path).anchor with
    | root => exact .inr rfl
    | here =>
      left
      rw [hkept] at hsplit
      rw [← hanchor]
      exact (isOfText_ofText path).of_append hsplit fun hhere => absurd hanchor hhere
    | none =>
      rw [hkept, hanchor] at hne
      exact absurd rfl hne

/-- The text of a parent is taken apart into the parent again; only a root has a void part
then. -/
theorem ofText_text_parent {path : List Char} {parent : Path}
    (h : (ofText path).parent? = some parent) (hne : parent.text ≠ []) :
    ofText parent.text = parent ∨ parent = ⟨.root, []⟩ :=
  (isOfText_parent h hne).imp_left ofText_text

/-- The text of a parent with parts ends in its last part, and that is not void. -/
theorem getLast?_text_parent {path : List Char} {parent : Path}
    (h : (ofText path).parent? = some parent) (hne : parent.parts ≠ []) :
    ∃ c, parent.text.getLast? = some c ∧ c ≠ '/' := by
  rcases parent?_cases h with rfl | ⟨front, part, rest, hparts, rfl⟩
  · exact absurd rfl hne
  obtain ⟨voids, -, hfront⟩ := exists_dropVoidEnd_append front
  obtain ⟨before, last, hlast⟩ : ∃ before last, dropVoidEnd front = before ++ [last] := by
    rcases List.eq_nil_or_concat (dropVoidEnd front) with hnil | ⟨before, last, hconcat⟩
    · exact absurd hnil hne
    · exact ⟨before, last, by rw [hconcat, List.concat_eq_append]⟩
  have hvoid : isVoid last = false :=
    isVoid_getLast?_dropVoidEnd (hlast ▸ List.getLast?_concat)
  have hslash : '/' ∉ last := by
    refine @not_mem_of_mem_parts path last ?_
    rw [hparts, ← hfront, hlast]
    simp
  have htext := @text_eq_of_parts ⟨(ofText path).anchor, dropVoidEnd front⟩ before [] last hlast
  rw [List.flatMap_nil, List.append_nil] at htext
  obtain ⟨c, hc⟩ : ∃ c, last.getLast? = some c :=
    ⟨_, List.getLast?_eq_some_getLast (ne_nil_of_isVoid hvoid)⟩
  refine ⟨c, ?_, ?_⟩
  · rw [htext, List.getLast?_append, hc]
    rfl
  · rintro rfl
    exact hslash (List.mem_of_getLast? hc)

/-- A text without a slash stands behind a slash, unless the path text is empty or ends in one. -/
theorem below_of_not_mem {base added : List Char} (hadded : '/' ∉ added) :
    below base added =
      if base = [] ∨ base.getLast? = some '/' then base ++ added else base ++ '/' :: added := by
  unfold below
  split
  · exact absurd List.mem_cons_self hadded
  split
  · next c hlast =>
    have hne : base ≠ [] := by
      rintro rfl
      cases hlast
    simp [hne, hlast]
  · next hnone => simp [List.getLast?_eq_none_iff.mp hnone]

/-- A text below a parent is a new last part. -/
theorem below_text_parent {path added : List Char} {parent : Path}
    (h : (ofText path).parent? = some parent) (hadded : '/' ∉ added) :
    below parent.text added = text ⟨parent.anchor, parent.parts ++ [added]⟩ := by
  rw [below_of_not_mem hadded]
  obtain ⟨anchor, parts⟩ := parent
  cases parts with
  | nil => cases anchor <;> simp [text, Text.join]
  | cons first more =>
    obtain ⟨c, hc, hslash⟩ := getLast?_text_parent h (List.cons_ne_nil first more)
    rw [if_neg, text_append_singleton anchor (List.cons_ne_nil first more)]
    rintro (hnil | hlast)
    · rw [hnil] at hc
      cases hc
    · rw [hc] at hlast
      exact hslash (Option.some.inj hlast)

end Path

end PhasedInduction
