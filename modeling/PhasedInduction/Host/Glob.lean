import PhasedInduction.Text.Split

/-!
# Patterns

Patterns of the shell: a question mark stands for any character, a star for any text, and
brackets for one of several characters.  A quoted character always stands for itself.

Main results:

- Theorem {lit}`Glob.fits_literal_iff`: a pattern of plain characters fits that text only.
- Theorem {lit}`Glob.fits_many`: a star fits every text.
-/

namespace PhasedInduction.Host

/-- A part of a pattern. -/
inductive Glob.Item where
  | one (c : Char)
  | any
  | many
  /-- A character of the ranges, or a character of none of them. -/
  | among (inverted : Bool) (ranges : List (Char × Char))
deriving DecidableEq, Repr

/-- A pattern. -/
abbrev Glob := List Glob.Item

namespace Glob

/-! ## Reading -/

/-- The characters of a named class. -/
def classRanges : String → List (Char × Char)
  | "alpha" => [('a', 'z'), ('A', 'Z')]
  | "digit" => [('0', '9')]
  | "alnum" => [('a', 'z'), ('A', 'Z'), ('0', '9')]
  | "upper" => [('A', 'Z')]
  | "lower" => [('a', 'z')]
  | "space" => [(' ', ' '), ('\t', '\r')]
  | "blank" => [(' ', ' '), ('\t', '\t')]
  | "punct" => [('!', '/'), (':', '@'), ('[', '\x60'), ('\x7b', '~')]
  | "print" => [(' ', '~')]
  | "graph" => [('!', '~')]
  | "cntrl" => [('\x00', '\x1f'), ('\x7f', '\x7f')]
  | "xdigit" => [('0', '9'), ('a', 'f'), ('A', 'F')]
  | _ => []

/-- The named class after its opening, with the text after it. -/
def classAt? (s : List (Char × Bool)) : Option (List (Char × Char) × List (Char × Bool)) :=
  let name := s.takeWhile fun p => p.1.isAlpha
  match s.drop name.length with
  | (':', _) :: (']', _) :: rest => some (classRanges (String.ofList (name.map Prod.fst)), rest)
  | _ => none

/-- The ranges up to the closing bracket, with the text after it; the first character is
never the closing bracket.  Every turn takes a character. -/
def rangesAt : (budget : Nat) → (first : Bool) → List (Char × Bool) →
    Option (List (Char × Char) × List (Char × Bool))
  | 0, _, _ => none
  | _, _, [] => none
  | budget + 1, first, (c, active) :: s =>
    if c = ']' ∧ active ∧ ¬first then some ([], s)
    else
      let named := match s with
        | (':', _) :: t => if c = '[' then classAt? t else none
        | _ => none
      match named, s with
      | some (ranges, rest), _ =>
        (rangesAt budget false rest).map fun (more, rest) => (ranges ++ more, rest)
      | none, ('-', _) :: (d, other) :: rest =>
        if d = ']' ∧ other then
          (rangesAt budget false s).map fun (more, rest) => ((c, c) :: more, rest)
        else (rangesAt budget false rest).map fun (more, rest) => ((c, d) :: more, rest)
      | none, s => (rangesAt budget false s).map fun (more, rest) => ((c, c) :: more, rest)

/-- The bracket after its opening, with the text after it. -/
def bracketAt? (s : List (Char × Bool)) : Option (Item × List (Char × Bool)) :=
  match s with
  | ('!', true) :: t =>
    (rangesAt (t.length + 1) true t).map fun (ranges, rest) => (.among true ranges, rest)
  | s => (rangesAt (s.length + 1) true s).map fun (ranges, rest) => (.among false ranges, rest)

/-- The pattern of characters, each with whether it may have a special meaning.  A bracket
that is not closed stands for itself, and so does the character after a backslash. -/
def readFrom : (budget : Nat) → List (Char × Bool) → Glob
  | 0, _ => []
  | _, [] => []
  | budget + 1, (c, false) :: s => .one c :: readFrom budget s
  | budget + 1, ('?', true) :: s => .any :: readFrom budget s
  | budget + 1, ('*', true) :: s => .many :: readFrom budget s
  | budget + 1, ('\\', true) :: (c, _) :: s => .one c :: readFrom budget s
  | budget + 1, ('[', true) :: s =>
    match bracketAt? s with
    | some (item, rest) => item :: readFrom budget rest
    | none => .one '[' :: readFrom budget s
  | budget + 1, (c, true) :: s => .one c :: readFrom budget s

/-- The pattern of characters, each with whether it may have a special meaning. -/
def read (s : List (Char × Bool)) : Glob := readFrom s.length s

/-- The pattern that fits one text only. -/
def literal (s : List Char) : Glob := s.map .one

/-! ## Fitting -/

/-- Whether a part that stands for one character stands for this one. -/
def Item.accepts (c : Char) : Item → Bool
  | one d => c = d
  | any => true
  | many => false
  | among inverted ranges => inverted != ranges.any fun (low, high) => low ≤ c && c ≤ high

/-- Whether a pattern fits a text as a whole. -/
def fits : Glob → List Char → Bool
  | [], s => s.isEmpty
  | .many :: p, [] => fits p []
  | .many :: p, c :: s => fits p (c :: s) || fits (.many :: p) s
  | _ :: _, [] => false
  | item :: p, c :: s => item.accepts c && fits p s
termination_by p s => p.length + s.length
decreasing_by all_goals (simp only [List.length_cons, List.length_nil]; omega)

/-- A pattern of plain characters fits that text only. -/
theorem fits_literal_iff (s t : List Char) : fits (literal s) t = true ↔ t = s := by
  induction s generalizing t with
  | nil => cases t <;> simp [literal, fits]
  | cons c s ih =>
    cases t with
    | nil => simp [literal, fits]
    | cons d t =>
      have := ih t
      simp only [literal] at this
      simp [literal, fits, Item.accepts, this]

/-- A star fits every text. -/
theorem fits_many (s : List Char) : fits [.many] s = true := by
  induction s with
  | nil => simp [fits]
  | cons c s ih => simp [fits, ih]

/-! ## Cutting -/

/-- How much of the start of a text a pattern fits, the most or the least. -/
def frontLength? (p : Glob) (longest : Bool) (s : List Char) : Option Nat :=
  let lengths := List.range (s.length + 1)
  (if longest then lengths.reverse else lengths).find? fun n => fits p (s.take n)

/-- A text without what a pattern fits at its start. -/
def cutFront (p : Glob) (longest : Bool) (s : List Char) : List Char :=
  match frontLength? p longest s with
  | some n => s.drop n
  | none => s

/-- A text without what a pattern fits at its end. -/
def cutBack (p : Glob) (longest : Bool) (s : List Char) : List Char :=
  let lengths := List.range (s.length + 1)
  match (if longest then lengths else lengths.reverse).find? fun n => fits p (s.drop n) with
  | some n => s.take n
  | none => s

end Glob

end PhasedInduction.Host
