import PhasedInduction.Host.Format.Integer

/-!
# Real numbers in formats

A real number in an argument is rounded to a binary fraction of some bits, and that fraction
is printed exactly, rounded to the decimal places asked for.  All is done on quotients of
natural numbers; half a unit goes to the even neighbour.

Main results:

- Theorem {lit}`Real.roundedQuotient_mul`: a quotient without rest is not changed by rounding.
- Theorem {lit}`Real.roundedQuotient_bounds`: rounding moves a quotient by half a unit at most.
-/

namespace PhasedInduction.Host

/-- A real number that an argument denotes. -/
inductive Real where
  /-- A quotient with a sign. -/
  | finite (negative : Bool) (numerator denominator : Nat)
  | infinite (negative : Bool)
  | undefined
deriving DecidableEq, Repr

namespace Real

/-! ## Kinds of real numbers -/

/-- How exact the real numbers of a program are. -/
structure Exactness where
  /-- How many bits a number has. -/
  bits : Nat
  /-- The power of two that is too large. -/
  reach : Nat
deriving DecidableEq, Repr

namespace Exactness

/-- Numbers of fifty-three bits. -/
def double : Exactness := ⟨53, 1024⟩

/-- Numbers of sixty-four bits. -/
def extended : Exactness := ⟨64, 16384⟩

/-- How many places after the point a number has at most. -/
def finest (e : Exactness) : Nat := e.reach + e.bits - 3

/-- Whether a quotient is below the power of two that is too large. -/
def fits (e : Exactness) (n d : Nat) : Bool := n < d * Nat.pow 2 e.reach

/-- Whether a quotient is so small that bits are lost. -/
def isTiny (e : Exactness) (n d : Nat) : Bool := n * Nat.pow 2 (e.reach - 2) < d

end Exactness

/-! ## Rounding -/

/-- The natural number next to a quotient; half a unit goes to the even neighbour. -/
def roundedQuotient (n d : Nat) : Nat :=
  let q := n / d
  let r := n % d
  if d < 2 * r ∨ (2 * r = d ∧ q % 2 = 1) then q + 1 else q

/-- A quotient without rest is not changed by rounding. -/
theorem roundedQuotient_mul (q : Nat) {d : Nat} (h : 0 < d) : roundedQuotient (q * d) d = q := by
  have : q * d / d = q := Nat.mul_div_cancel q h
  simp [roundedQuotient, this]
  omega

/-- Rounding moves a quotient by half a unit at most. -/
theorem roundedQuotient_bounds (n : Nat) {d : Nat} (h : 0 < d) :
    2 * n ≤ 2 * d * roundedQuotient n d + d ∧ 2 * d * roundedQuotient n d ≤ 2 * n + d := by
  have hm := Nat.div_add_mod n d
  have hr := Nat.mod_lt n h
  have hq : 2 * d * (n / d + 1) = 2 * (d * (n / d)) + 2 * d := by
    rw [Nat.mul_add, Nat.mul_assoc, Nat.mul_one]
  have hq' : 2 * d * (n / d) = 2 * (d * (n / d)) := Nat.mul_assoc ..
  simp only [roundedQuotient]
  split <;> omega

/-- A quotient multiplied by a power of a base, which may be negative. -/
def scaled (base : Nat) (n d : Nat) : Int → Nat × Nat
  | .ofNat k => (n * Nat.pow base k, d)
  | .negSucc k => (n, d * Nat.pow base (k + 1))

/-- By how many places a positive quotient is shifted so that so many bits are whole. -/
def shiftFor (bits n d : Nat) : Int :=
  let shift : Int := bits - 1 - ((Nat.log2 n : Int) - Nat.log2 d)
  let (a, b) := scaled 2 n d shift
  if a / b < Nat.pow 2 (bits - 1) then shift + 1 else shift

/-- The binary fraction next to a positive quotient, as a quotient. -/
def binary (e : Exactness) (n d : Nat) : Nat × Nat :=
  let shift := min (shiftFor e.bits n d) e.finest
  let (a, b) := scaled 2 n d shift
  scaled 2 (roundedQuotient a b) 1 (-shift)

/-! ## Reading -/

/-- A real number at the start of a text. -/
structure Found where
  value : Real
  outOfRange : Bool := false
deriving DecidableEq, Repr

/-- The largest power, up or down, that does not count as nothing or too much. -/
def exponentLimit : Int := 20000

/-- The number of digits in a base, of which so many stand after the point, with a power of
another base. -/
def ofDigits (e : Exactness) (negative : Bool) (digits places : Nat × Nat) (powerBase : Nat)
    (exponent : Int) : Found :=
  let (n, length) := digits
  let (base, places) := places
  if n = 0 then ⟨.finite negative 0 1, false⟩
  else if exponentLimit < exponent + length then ⟨.infinite negative, true⟩
  else if exponent + length < -exponentLimit then ⟨.finite negative 0 1, true⟩
  else
    let (n, d) := scaled powerBase n (Nat.pow base places) exponent
    let (a, b) := binary e n d
    if e.fits a b then ⟨.finite negative a b, e.isTiny a b && n * b != a * d⟩
    else ⟨.infinite negative, true⟩

/-- The power behind a letter at the start of a text, with the text after it. -/
def exponentAt (letter : Char) (s : List Char) : Int × List Char :=
  match s with
  | e :: rest =>
    if e.toLower = letter then
      let (negative, digits) := match rest with
        | '-' :: t => (true, t)
        | '+' :: t => (false, t)
        | t => (false, t)
      let number := digits.takeWhile Text.isDecimal
      if number.isEmpty then (0, s)
      else
        let value : Int := Text.decimalValue number
        (if negative then -value else value, digits.dropWhile Text.isDecimal)
    else (0, s)
  | [] => (0, s)

/-- The digits before and after a point at the start of a text, with the text after them. -/
def digitsAt (isDigit : Char → Bool) (s : List Char) : List Char × List Char × List Char :=
  let whole := s.takeWhile isDigit
  match s.dropWhile isDigit with
  | '.' :: t => (whole, t.takeWhile isDigit, t.dropWhile isDigit)
  | t => (whole, [], t)

/-- Whether a character is a hexadecimal digit. -/
def isHexadecimal (c : Char) : Bool := (EscapeRules.hexadecimalValue? c).isSome

/-- The real number in hexadecimal digits at the start of a text, with the text after it. -/
def hexadecimal? (e : Exactness) (negative : Bool) (s : List Char) :
    Option (Found × List Char) :=
  let (whole, fraction, rest) := digitsAt isHexadecimal s
  let digits := whole ++ fraction
  if digits.isEmpty then none
  else
    let (exponent, rest) := exponentAt 'p' rest
    let (n, _) := EscapeRules.number 16 EscapeRules.hexadecimalValue? 0 digits.length digits
    some (ofDigits e negative (n, 0) (16, fraction.length) 2 exponent, rest)

/-- The real number in decimal digits at the start of a text, with the text after it. -/
def decimal? (e : Exactness) (negative : Bool) (s : List Char) : Option (Found × List Char) :=
  let (whole, fraction, rest) := digitsAt Text.isDecimal s
  if whole.isEmpty ∧ fraction.isEmpty then none
  else
    let (exponent, rest) := exponentAt 'e' rest
    let n := Text.decimalValue (whole ++ fraction)
    let length := (Text.decimal n).length - fraction.length
    some (ofDigits e negative (n, length) (10, fraction.length) 10 exponent, rest)

/-- The real number without a sign at the start of a text, with the text after it. -/
def magnitude? (e : Exactness) (negative : Bool) (s : List Char) : Option (Found × List Char) :=
  let lower := s.map Char.toLower
  if "infinity".toList.isPrefixOf lower then some (⟨.infinite negative, false⟩, s.drop 8)
  else if "inf".toList.isPrefixOf lower then some (⟨.infinite negative, false⟩, s.drop 3)
  else if "nan".toList.isPrefixOf lower then some (⟨.undefined, false⟩, s.drop 3)
  else
    match lower with
    | '0' :: 'x' :: _ => (hexadecimal? e negative (s.drop 2)).or (decimal? e negative s)
    | _ => decimal? e negative s

/-- The real number at the start of a text, with the text after it. -/
def prefixed? (e : Exactness) (s : List Char) : Option (Found × List Char) :=
  match s.dropWhile Integer.isSpace with
  | '-' :: s => magnitude? e true s
  | '+' :: s => magnitude? e false s
  | s => magnitude? e false s

/-- A real number with what is wrong with it. -/
structure Reading where
  value : Real
  fault : Option NumberFault := none
deriving DecidableEq, Repr

/-- The real number of an argument, with the rules for characters and the empty argument
that integers have. -/
def read (e : Exactness) (wide : Bool) (s : List Char) : Reading :=
  match Integer.quoted? wide s with
  | some (n, fault) => ⟨.finite false n 1, fault⟩
  | none =>
    if s.isEmpty then ⟨.finite false 0 1, none⟩
    else
      match prefixed? e s with
      | none => ⟨.finite false 0 1, some .missing⟩
      | some (found, rest) =>
        ⟨found.value,
          if found.outOfRange then some .outOfRange else if rest.isEmpty then none
          else some .trailing⟩

/-! ## Printing -/

/-- Digits with a point before the last so many of them, if there are any. -/
def pointed (places : Nat) (point : Bool) (digits : List Char) : List Char :=
  let digits := Text.padded (places + 1) digits
  let whole := digits.take (digits.length - places)
  if places = 0 then (if point then whole ++ ['.'] else whole)
  else whole ++ '.' :: digits.drop (digits.length - places)

/-- How many places may be other than zero: no binary fraction that is read has more. -/
def exactPlaces : Nat := 20000

/-- The zeros in the places after the exact ones. -/
def zerosAfter (places : Nat) : List Char := List.replicate (places - exactPlaces) '0'

/-- A quotient with so many decimal places. -/
def fixed (places : Nat) (point : Bool) (n d : Nat) : List Char :=
  let exact := min places exactPlaces
  pointed exact point (Text.decimal (roundedQuotient (n * Nat.pow 10 exact) d)) ++
    zerosAfter places

/-- The power of ten of the first digit of a quotient. -/
def leadingPower (n d : Nat) : Int :=
  if n = 0 then 0
  else
    let most : Int := (Text.decimal n).length - (Text.decimal d).length
    let (a, b) := scaled 10 n d (-most)
    if b ≤ a then most else most - 1

/-- The digits of a quotient, one and so many more, with the power of ten of the first. -/
def significant (more : Nat) (n d : Nat) : List Char × Int :=
  let power := leadingPower n d
  let (a, b) := scaled 10 n d (more - power)
  let rounded := roundedQuotient a b
  if Nat.pow 10 (more + 1) ≤ rounded then (Text.decimal (rounded / 10), power + 1)
  else (Text.padded (more + 1) (Text.decimal rounded), power)

/-- A power of ten behind its letter. -/
def exponentText (capital : Bool) (power : Int) : List Char :=
  (if capital then 'E' else 'e') :: (if power < 0 then '-' else '+') ::
    Text.padded 2 (Text.decimal power.natAbs)

/-- A quotient with one digit before the point, so many after it, and a power of ten. -/
def exponential (places : Nat) (point capital : Bool) (n d : Nat) : List Char :=
  let exact := min places exactPlaces
  let (digits, power) := significant exact n d
  pointed exact point digits ++ zerosAfter places ++ exponentText capital power

/-- Digits with a point without the zeros at their end. -/
def withoutZeros (s : List Char) : List Char :=
  if s.contains '.' then
    match s.reverse.dropWhile (· = '0') with
    | '.' :: t => t.reverse
    | t => t.reverse
  else s

/-- A quotient with so many digits in the shorter of the two forms. -/
def general (digits : Nat) (point capital : Bool) (n d : Nat) : List Char :=
  let digits := min (max digits 1) exactPlaces
  let (all, power) := significant (digits - 1) n d
  let trim := fun s => if point then s else withoutZeros s
  if power < -4 ∨ (digits : Int) ≤ power then
    trim (pointed (digits - 1) point all) ++ exponentText capital power
  else trim (fixed ((digits : Int) - 1 - power).toNat point n d)

/-- A quotient in hexadecimal digits, with so many places or as many as there are, and a power
of two.  All but the first digit stand after the point. -/
def hexadecimal (e : Exactness) (places : Option Nat) (point capital : Bool) (n d : Nat) :
    List Char :=
  let more := (e.bits - 1) / 4
  let (whole, power) : Nat × Int :=
    if n = 0 then (0, 0)
    else
      let shift := shiftFor e.bits n d
      let (a, b) := scaled 2 n d shift
      (a / b, 4 * (more : Int) - shift)
  let kept := min more (places.getD more)
  let rounded := roundedQuotient whole (Nat.pow 16 (more - kept))
  let (rounded, power) :=
    if Nat.pow 16 (kept + 1) ≤ rounded then (rounded / 16, power + 4) else (rounded, power)
  let digits := Text.padded (kept + 1) (Integer.digits 16 capital rounded)
  let fraction := match places with
    | none => ((digits.drop 1).reverse.dropWhile (· = '0')).reverse
    | some places => digits.drop 1 ++ List.replicate (places - kept) '0'
  digits.take 1 ++ (if fraction.isEmpty ∧ ¬point then [] else '.' :: fraction) ++
    (if capital then 'P' else 'p') :: (if power < 0 then '-' else '+') ::
      Text.decimal power.natAbs

end Real

end PhasedInduction.Host
