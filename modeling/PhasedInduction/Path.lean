import PhasedInduction.Text.Split

/-!
# Paths

A path is a text whose parts stand between slashes.  Parts that are empty or a
single dot are void: they do not change where the path leads, except that a dot at
the start of a relative path counts as a part of its own.  Two paths are alike when
they have the same components.

A path text splits into its anchor (a leading slash, a leading dot, or nothing) and
the parts behind it, and nothing of the text is lost.

Main results:

- Theorem {lit}`Path.text_ofText`: the parts of a path text give the text back.
- Theorem {lit}`Path.text_eq_of_fileName?`: a path with a file name is the directory
  text, the file name, and a void rest.
-/

namespace PhasedInduction

/-- What a path starts with. -/
inductive Anchor where
  | root
  | here
  | none
deriving DecidableEq, Repr

/-- A path text taken apart at its slashes. -/
structure Path where
  anchor : Anchor
  parts : List (List Char)
deriving DecidableEq, Repr

namespace Path

/-! ## Texts and parts -/

/-- The parts of a path text. -/
def ofText (text : List Char) : Path :=
  match Text.pieces '/' text with
  | [] :: p :: ps => ⟨.root, p :: ps⟩
  | ['.'] :: ps => ⟨.here, ps⟩
  | ps => ⟨.none, ps⟩

/-- The text of a path. -/
def text (p : Path) : List Char :=
  match p.anchor with
  | .root => '/' :: Text.join '/' p.parts
  | .here =>
    match p.parts with
    | [] => ['.']
    | parts => '.' :: '/' :: Text.join '/' parts
  | .none => Text.join '/' p.parts

/-- A path text begins with a slash, with a dot of its own, or with neither. -/
theorem ofText_cases (t : List Char) :
    (∃ p ps, Text.pieces '/' t = [] :: p :: ps ∧ ofText t = ⟨.root, p :: ps⟩) ∨
    (∃ ps, Text.pieces '/' t = ['.'] :: ps ∧ ofText t = ⟨.here, ps⟩) ∨
    ((∀ p ps, Text.pieces '/' t ≠ [] :: p :: ps) ∧ (∀ ps, Text.pieces '/' t ≠ ['.'] :: ps) ∧
      ofText t = ⟨.none, Text.pieces '/' t⟩) := by
  unfold ofText
  split
  · next p ps hp => exact .inl ⟨p, ps, hp, rfl⟩
  · next ps hp => exact .inr (.inl ⟨ps, hp, rfl⟩)
  · next hroot hhere => exact .inr (.inr ⟨hroot, hhere, rfl⟩)

/-- The parts of a path text give the text back. -/
theorem text_ofText (t : List Char) : (ofText t).text = t := by
  have h := Text.join_pieces '/' t
  unfold ofText
  split
  · next p ps hp => rw [hp] at h; simpa [text, Text.join] using h
  · next ps hp =>
    rw [hp] at h
    cases ps with
    | nil => simpa [text, Text.join] using h
    | cons q qs => simpa [text, Text.join] using h
  · simpa [text] using h

/-- Whether a part does not change where a path leads. -/
def isVoid (part : List Char) : Bool :=
  part = [] || part = ['.']

/-- The parts without the void ones at the end. -/
def dropVoidEnd (parts : List (List Char)) : List (List Char) :=
  (parts.reverse.dropWhile isVoid).reverse

/-! ## Components -/

/-- One step of a path. -/
inductive Component where
  | root
  | here
  | up
  | name (text : List Char)
deriving DecidableEq, Repr

/-- The step that a part stands for, if any. -/
def Component.ofPart? (part : List Char) : Option Component :=
  if isVoid part then none
  else if part = ['.', '.'] then some .up
  else some (.name part)

/-- The steps of a path. -/
def components (p : Path) : List Component :=
  (match p.anchor with
    | .root => [.root]
    | .here => [.here]
    | .none => []) ++ p.parts.filterMap Component.ofPart?

/-- Whether two path texts have the same steps. -/
def alike (a b : List Char) : Bool :=
  (ofText a).components = (ofText b).components

/-! ## File names, parents and extensions -/

/-- The last part that is not void, with the parts before and after it. -/
def lastPart? (p : Path) : Option (List (List Char) × List Char × List (List Char)) :=
  match p.parts.reverse.dropWhile isVoid with
  | [] => none
  | part :: front => some (front.reverse, part, (p.parts.reverse.takeWhile isVoid).reverse)

/-- The last part of a path, if it is a name. -/
def fileName? (p : Path) : Option (List Char) :=
  match p.lastPart? with
  | some (_, part, _) => if part = ['.', '.'] then none else some part
  | none => none

/-- The text of the anchor in front of further parts. -/
def anchorText : Anchor → List Char
  | .root => ['/']
  | .here => ['.', '/']
  | .none => []

/-- The text before the last part that is not void. -/
def directoryText (p : Path) : List Char :=
  match p.lastPart? with
  | some (front, _, _) => anchorText p.anchor ++ front.flatMap (· ++ ['/'])
  | none => []

/-- The text behind the last part that is not void: slashes and dots. -/
def voidText (p : Path) : List Char :=
  match p.lastPart? with
  | some (_, _, rest) => rest.flatMap ('/' :: ·)
  | none => []

/-- The path without its last step; a path that is only a root, or has no steps,
has no parent. -/
def parent? (p : Path) : Option Path :=
  match p.lastPart? with
  | some (front, _, _) => some ⟨p.anchor, dropVoidEnd front⟩
  | none =>
    match p.anchor with
    | .here => some ⟨.none, []⟩
    | _ => none

/-- The texts before and after the last dot of a file name.  A name whose only dot
is its first character has no extension. -/
def splitExtension (name : List Char) : Option (List Char × List Char) :=
  match Text.cutLast '.' name with
  | some ([], _) => none
  | halves => halves

/-- The extension of the file name. -/
def extension? (p : Path) : Option (List Char) :=
  p.fileName?.bind fun name => (splitExtension name).map Prod.snd

/-- The file name up to its extension. -/
def fileStem? (p : Path) : Option (List Char) :=
  p.fileName?.map fun name =>
    match splitExtension name with
    | some (stem, _) => stem
    | none => name

/-- A path text cut right behind its file stem.  One without a file name stays as it is. -/
def clearExtension (path : List Char) : List Char :=
  match (ofText path).fileStem? with
  | some stem => (ofText path).directoryText ++ stem
  | none => path

/-- A path text with another one appended below it; an absolute one replaces it. -/
def below (base added : List Char) : List Char :=
  match added with
  | '/' :: _ => added
  | _ =>
    match base.getLast? with
    | some c => if c = '/' then base ++ added else base ++ '/' :: added
    | none => added

/-! ## Taking a text apart at its file name -/

private theorem join_append_cons (front : List (List Char)) (part : List Char)
    (rest : List (List Char)) :
    Text.join '/' (front ++ part :: rest) =
      front.flatMap (· ++ ['/']) ++ part ++ rest.flatMap ('/' :: ·) := by
  induction front with
  | nil =>
    induction rest generalizing part with
    | nil => simp [Text.join]
    | cons r rest ih => simpa [Text.join] using ih r
  | cons f front ih =>
    cases front with
    | nil => simpa [Text.join] using ih
    | cons g front => simpa [Text.join] using ih

theorem parts_eq_of_lastPart? {p : Path} {front rest : List (List Char)} {part : List Char}
    (h : p.lastPart? = some (front, part, rest)) : p.parts = front ++ part :: rest := by
  unfold lastPart? at h
  split at h
  · simp at h
  · next q qs hq =>
    simp only [Option.some.injEq, Prod.mk.injEq] at h
    obtain ⟨rfl, rfl, rfl⟩ := h
    have := congrArg List.reverse (List.takeWhile_append_dropWhile (p := isVoid)
      (l := p.parts.reverse))
    rw [hq] at this
    simpa using this.symm

/-- The text of a path around any of its parts. -/
theorem text_eq_of_parts {p : Path} {front rest : List (List Char)} {part : List Char}
    (h : p.parts = front ++ part :: rest) :
    p.text = anchorText p.anchor ++ front.flatMap (· ++ ['/']) ++ part ++
      rest.flatMap ('/' :: ·) := by
  have hj := join_append_cons front part rest
  rw [← h] at hj
  unfold text
  cases ha : p.anchor with
  | root => simp [anchorText, hj]
  | none => simp [anchorText, hj]
  | here =>
    cases hparts : p.parts with
    | nil => simp [hparts] at h
    | cons q qs =>
      rw [hparts] at hj
      simp [anchorText, hj]

/-- A path with a last part is its directory text, that part, and a void rest. -/
theorem text_eq_of_lastPart? {p : Path} {front rest : List (List Char)} {part : List Char}
    (h : p.lastPart? = some (front, part, rest)) :
    p.text = p.directoryText ++ part ++ p.voidText := by
  simp only [text_eq_of_parts (parts_eq_of_lastPart? h), directoryText, voidText, h]

/-- A path with a file name is its directory text, that name, and a void rest. -/
theorem text_eq_of_fileName? {p : Path} {name : List Char} (h : p.fileName? = some name) :
    p.text = p.directoryText ++ name ++ p.voidText := by
  unfold fileName? at h
  split at h
  · next front part rest hl =>
    split at h
    · simp at h
    · simp only [Option.some.injEq] at h
      subst h
      exact text_eq_of_lastPart? hl
  · simp at h

end Path

end PhasedInduction
