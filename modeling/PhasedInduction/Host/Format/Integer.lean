import PhasedInduction.Host.Escape

/-!
# Integers in arguments

An argument is read as an integer from its start: blanks, a sign, and digits, which are
octal after a zero and hexadecimal after a zero and an {lit}`x`.  What is left over or does
not fit sixty-four bits is told with the number.

Main results:

- Theorem {lit}`signed_mem_range`: a signed number that is read fits sixty-four bits.
-/

namespace PhasedInduction.Host

/-- What is wrong with a number in an argument. -/
inductive NumberFault where
  /-- There is no number at the start. -/
  | missing
  /-- Characters follow the number. -/
  | trailing
  | outOfRange
  /-- These characters follow the one that is meant. -/
  | ignored (rest : List Char)
deriving DecidableEq, Repr

namespace Integer

/-! ## Ranges -/

/-- The number of the values that sixty-four bits hold. -/
def words : Nat := Nat.pow 2 64

/-- The least and the largest signed number. -/
def least : Int := -(Nat.pow 2 63 : Nat)

def largest : Int := (Nat.pow 2 63 : Nat) - 1

/-- A number cut to the signed range. -/
def wrapped (n : Int) : Int := n.bmod words

/-! ## Reading -/

/-- Whether a character is blank for readers of numbers. -/
def isSpace (c : Char) : Bool :=
  c = ' ' || ('\t' ≤ c && c ≤ '\r')

/-- The number of the digits at the start of a text, with how many they are. -/
def digitsAt (base : Nat) (digit? : Char → Option Nat) (s : List Char) : Nat × List Char :=
  EscapeRules.number base digit? 0 s.length s

/-- The value of a decimal digit. -/
def decimalValue? (c : Char) : Option Nat :=
  if Text.isDecimal c then some (c.toNat - 48) else none

/-- The number without a sign at the start of a text, with the text after it. -/
def magnitude? (s : List Char) : Option (Nat × List Char) :=
  match s with
  | '0' :: x :: d :: rest =>
    if (x = 'x' ∨ x = 'X') ∧ (EscapeRules.hexadecimalValue? d).isSome then
      some (digitsAt 16 EscapeRules.hexadecimalValue? (d :: rest))
    else some (digitsAt 8 EscapeRules.octalValue? s)
  | '0' :: _ => some (digitsAt 8 EscapeRules.octalValue? s)
  | c :: _ => if Text.isDecimal c then some (digitsAt 10 decimalValue? s) else none
  | [] => none

/-- The integer at the start of a text, with the text after it. -/
def prefixed? (s : List Char) : Option (Int × List Char) :=
  match s.dropWhile isSpace with
  | '-' :: s => (magnitude? s).map fun (n, rest) => (-(n : Int), rest)
  | '+' :: s => (magnitude? s).map fun (n, rest) => ((n : Int), rest)
  | s => (magnitude? s).map fun (n, rest) => ((n : Int), rest)

/-- A number with what is wrong with it. -/
structure Reading where
  value : Int
  fault : Option NumberFault := none
deriving DecidableEq, Repr

/-- The number of the character that stands behind a quote and is meant.  Most programs take
its first byte and need none; those that know all characters want one and no more. -/
def quoted? (wide : Bool) (s : List Char) : Option (Nat × Option NumberFault) :=
  match s with
  | [] => none
  | q :: rest =>
    if q ≠ '\'' ∧ q ≠ '"' then none
    else if !wide then some ((rest.head?.map Char.toNat).getD 0, none)
    else if rest.isEmpty then none
    else
      let (c, after) := Text.firstChar (ByteText.byteOf (rest.head?.getD q))
        ((rest.drop 1).map ByteText.byteOf)
      let after := rest.drop (rest.length - after.length)
      let isWhole := ByteText.ofText (String.singleton c) =
        String.ofList (rest.take (rest.length - after.length))
      let (n, after) :=
        if isWhole then (c.toNat, after) else ((rest.head?.getD q).toNat, rest.drop 1)
      some (n, if after.isEmpty then none else some (.ignored after))

/-- The integer of an argument before any range is looked at; the empty argument is zero. -/
def read (wide : Bool) (s : List Char) : Reading :=
  match quoted? wide s with
  | some (n, fault) => ⟨n, fault⟩
  | none =>
    if s.isEmpty then ⟨0, none⟩
    else
      match prefixed? s with
      | none => ⟨0, some .missing⟩
      | some (n, []) => ⟨n, none⟩
      | some (n, _) => ⟨n, some .trailing⟩

/-- An argument as a signed number. -/
def signed (wide : Bool) (s : List Char) : Reading :=
  let r := read wide s
  if r.value < least then ⟨least, r.fault.or (some .outOfRange)⟩
  else if largest < r.value then ⟨largest, r.fault.or (some .outOfRange)⟩
  else r

/-- An argument as a number without sign; a negative one counts from the end of the range. -/
def unsigned (wide : Bool) (s : List Char) : Reading :=
  let r := read wide s
  if words ≤ r.value.natAbs then ⟨words - 1, r.fault.or (some .outOfRange)⟩
  else ⟨r.value.emod words, r.fault⟩

/-- A signed number that is read fits sixty-four bits. -/
theorem signed_mem_range (wide : Bool) (s : List Char) :
    least ≤ (signed wide s).value ∧ (signed wide s).value ≤ largest := by
  have : least ≤ largest := by decide
  simp only [signed]
  split
  · exact ⟨Int.le_refl _, this⟩
  · split
    · exact ⟨this, Int.le_refl _⟩
    · omega

/-! ## Digits -/

/-- The digits of a number, with capital letters or not. -/
def digits (base : Nat) (capital : Bool) (n : Nat) : List Char :=
  (Nat.toDigits base n).map fun c => if capital then c.toUpper else c

end Integer

end PhasedInduction.Host
