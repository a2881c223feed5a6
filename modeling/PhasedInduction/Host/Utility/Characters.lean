import PhasedInduction.Host.Glob
import PhasedInduction.Host.Utility.Sorting

/-!
# Programs about characters and fields

Replacing characters by others, and cutting parts out of lines.
-/

namespace PhasedInduction.Host

/-! ## Sets of characters -/

/-- The characters from one to another. -/
def characterRange (first last : Char) : List Char :=
  (List.range (last.toNat + 1 - first.toNat)).map fun n => Char.ofNat (first.toNat + n)

/-- The bytes as characters. -/
def allBytes : List Char := (List.range 256).map Char.ofNat

/-- The escapes in sets of characters. -/
def setEscapes : EscapeRules :=
  { EscapeRules.shellFormat with
    letters := EscapeRules.commonLetters.filter fun (letter, _) => letter ≠ 'e' }

/-- The characters of a description: escapes, ranges and named classes stand for others.  Every
turn takes a character. -/
def characterSet : (budget : Nat) → List Char → List Char
  | 0, _ => []
  | _, [] => []
  | budget + 1, '[' :: ':' :: s =>
    let name := s.takeWhile Char.isAlpha
    match s.drop name.length with
    | ':' :: ']' :: rest =>
      let ranges := Glob.classRanges (String.ofList name)
      (allBytes.filter fun c => ranges.any fun (a, b) => a ≤ c && c ≤ b) ++
        characterSet budget rest
    | _ => '[' :: characterSet budget (':' :: s)
  | budget + 1, c :: s =>
    let (first, rest) := if c = '\\' then
        let (printed, rest) := setEscapes.escape s
        (if printed.bytes.length = 1 then printed.bytes.head?.getD c else (s.head?.getD c), rest)
      else (c, s)
    match rest with
    | '-' :: d :: rest =>
      if first ≤ d then characterRange first d ++ characterSet budget rest
      else first :: characterSet budget ('-' :: d :: rest)
    | rest => first :: characterSet budget rest

/-- Which characters become which others. -/
abbrev CharacterMap := List (Char × Char)

namespace CharacterMap

/-- A character after a replacement. -/
def apply (m : CharacterMap) (c : Char) : Char := (m.lookup c).getD c

/-- The replacement of characters by others in turn; the last of those serves for all that are
left, and of several replacements of a character the last one counts. -/
def ofSets (before after : List Char) : CharacterMap :=
  let fill := after.getLast?.map fun c => List.replicate (before.length - after.length) c
  (before.zip (after ++ fill.getD [])).reverse

end CharacterMap

/-- A text in which each of some characters stands only once in a row. -/
def squeezedCharacters (set : List Char) : List Char → List Char
  | a :: b :: rest =>
    if a = b ∧ set.contains a then squeezedCharacters set (b :: rest)
    else a :: squeezedCharacters set (b :: rest)
  | s => s

/-- Replace, drop or squeeze characters of the standard input. -/
def trProgram (i : Invocation) : Process :=
  let rules : OptionRules :=
    { name := "tr", flags := ['c', 'C', 'd', 's', 't'], mixes := false
      long := [("complement", 'c'), ("delete", 'd'), ("squeeze-repeats", 's'),
        ("truncate-set1", 't')] }
  rules.run i.arguments fun o =>
    let deletes := o.has 'd'
    let squeezes := o.has 's'
    let sets := o.operands.map fun w => characterSet w.length w.toList
    let answer : List Char → Process := fun s =>
      { stdout := String.ofList s, tookInput := true }
    let input := i.input.toList
    match o.operands, sets with
    | [], _ => hinted "tr" 1 "missing operand"
    | _ :: _ :: extra :: _, _ => hinted "tr" 1 ("extra operand " ++ quoted extra)
    | first :: _, one :: more =>
      let one := if o.has 'c' ∨ o.has 'C' then allBytes.filter fun c => !one.contains c else one
      match more with
      | [] =>
        if deletes ∧ ¬squeezes then answer (input.filter fun c => !one.contains c)
        else if squeezes ∧ ¬deletes then answer (squeezedCharacters one input)
        else hinted "tr" 1 ("missing operand after " ++ quoted first ++
          (if deletes then "\nTwo strings must be given when both deleting and squeezing repeats."
            else "\nTwo strings must be given when translating."))
      | two :: _ =>
        if deletes ∧ ¬squeezes then
          hinted "tr" 1 ("extra operand " ++ quoted (o.operands.getLast?.getD "") ++
            "\nOnly one string may be given when deleting without squeezing repeats.")
        else if deletes then
          answer (squeezedCharacters two (input.filter fun c => !one.contains c))
        else
          let before := if o.has 't' then one.take two.length else one
          let turned := input.map (CharacterMap.ofSets before two).apply
          answer (if squeezes then squeezedCharacters two turned else turned)
    | _, [] => hinted "tr" 1 "missing operand"

/-! ## Parts of lines -/

/-- Positions from one to another, or to the end. -/
structure PositionRange where
  first : Nat
  last : Option Nat
deriving DecidableEq, Repr

/-- Whether a position is in a range. -/
def PositionRange.holds (r : PositionRange) (n : Nat) : Bool :=
  r.first ≤ n && (r.last.map fun m => decide (n ≤ m)).getD true

/-- Whether a position is in one of some ranges. -/
def inRanges (ranges : List PositionRange) (n : Nat) : Bool := ranges.any (·.holds n)

/-- The ranges that a word lists. -/
def readRanges? (word : ByteText) : Option (List PositionRange) :=
  (Text.pieces ',' word.toList).mapM fun part =>
    let number? := fun s : List Char =>
      if s.isEmpty || !s.all Text.isDecimal then none else some (Text.decimalValue s)
    match Text.cut '-' part with
    | none => (number? part).map fun n => ⟨n, some n⟩
    | some ([], []) => none
    | some ([], last) => (number? last).map fun m => ⟨1, some m⟩
    | some (first, []) => (number? first).map fun n => ⟨n, none⟩
    | some (first, last) =>
      match number? first, number? last with
      | some n, some m => some ⟨n, some m⟩
      | _, _ => none

/-- The members of a list at positions, counted from one. -/
def atPositions {α : Type} (chosen : Nat → Bool) (l : List α) : List α :=
  (l.zip (List.range l.length)).filterMap fun (a, n) => if chosen (n + 1) then some a else none

/-- Cut bytes or fields out of the lines of files. -/
def cutProgram (i : Invocation) : Process :=
  let rules : OptionRules :=
    { name := "cut", flags := ['s', 'n', 'z', 'I'], valued := ['b', 'c', 'd', 'f', 'O']
      long := [("bytes", 'b'), ("characters", 'c'), ("delimiter", 'd'), ("fields", 'f'),
        ("only-delimited", 's'), ("complement", 'I'), ("output-delimiter", 'O')] }
  rules.run i.arguments fun o =>
    match o.options.find? fun e => ['b', 'c', 'f'].contains e.1 with
    | none => hinted "cut" 1 "you must specify a list of bytes, characters, or fields"
    | some (kind, list) =>
      match readRanges? list with
      | none =>
        hinted "cut" 1 (if kind = 'f' then "invalid field value " ++ quoted list
          else "invalid byte or character range")
      | some ranges =>
        let chosen := fun n => inRanges ranges n != o.has 'I'
        let delimiter := ((o.value? 'd').bind fun w => w.toList.head?).getD '\t'
        let between := ((o.value? 'O').map String.toList).getD [delimiter]
        overInputs i o.operands 1 (plainComplaint "cut") fun _ text =>
          let made := (linesOf text).filterMap fun line =>
            if kind ≠ 'f' then some (String.ofList (atPositions chosen line))
            else if ¬line.contains delimiter then
              (if o.has 's' then none else some (String.ofList line))
            else
              let fields := atPositions chosen (Text.pieces delimiter line)
              some (Text.joined (String.ofList between) (fields.map String.ofList))
          ByteText.unlines made

end PhasedInduction.Host
