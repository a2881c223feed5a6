/-!
# Digits and numerals

Decimal and hexadecimal digits as characters, the value of a digit sequence, and
numerals of a fixed width with leading zeros.

Main results:

- Theorem {lit}`eq_zero_of_decimal_eq_cons`: only the numeral of zero begins with a zero.
- Theorem {lit}`hexValue?_hexChar`: a hexadecimal digit reads back as its value.
-/

namespace PhasedInduction.Text

/-! ## Decimal -/

/-- Whether a character is one of the ten decimal digits. -/
def isDecimal (c : Char) : Bool :=
  '0' ≤ c && c ≤ '9'

/-- The number that a sequence of decimal digits denotes. -/
def decimalValue (digits : List Char) : Nat :=
  Nat.ofDigitChars 10 digits 0

/-- The decimal numeral of a number. -/
def decimal (n : Nat) : List Char :=
  Nat.toDigits 10 n

@[simp]
theorem decimalValue_decimal (n : Nat) : decimalValue (decimal n) = n :=
  Nat.ofDigitChars_ten_toDigits

/-- A numeral consists of decimal digits. -/
theorem isDecimal_of_mem_decimal {c : Char} {n : Nat} (h : c ∈ decimal n) :
    isDecimal c = true := by
  have hdigit : c.isDigit = true := Nat.isDigit_of_mem_toDigits (by decide) (by decide) h
  simpa [isDecimal, Char.isDigit, Char.le_def] using hdigit

/-- Only the numeral of zero begins with a zero. -/
theorem eq_zero_of_decimal_eq_cons {n : Nat} {digits : List Char}
    (h : decimal n = '0' :: digits) : n = 0 := by
  induction n using Nat.strongRecOn generalizing digits with
  | ind n ih =>
    unfold decimal at h ih
    by_cases hsmall : n < 10
    · rw [Nat.toDigits_of_lt_base hsmall] at h
      exact Nat.digitChar_eq_zero.mp (List.cons.inj h).1
    · rw [Nat.toDigits_of_base_le (by decide) (by omega)] at h
      cases hhigher : Nat.toDigits 10 (n / 10) with
      | nil => exact absurd hhigher Nat.toDigits_ne_nil
      | cons c higher =>
        rw [hhigher, List.cons_append] at h
        obtain ⟨rfl, -⟩ := List.cons.inj h
        have := ih (n / 10) (by omega) hhigher
        omega

/-- A numeral with zeros put in front until it has the given width. -/
def padded (width : Nat) (numeral : List Char) : List Char :=
  List.replicate (width - numeral.length) '0' ++ numeral

/-! ## Hexadecimal -/

/-- The sixteen hexadecimal digits in lower case. -/
def hexDigits : List Char :=
  ['0', '1', '2', '3', '4', '5', '6', '7', '8', '9', 'a', 'b', 'c', 'd', 'e', 'f']

/-- The hexadecimal digit of a number below sixteen, in lower case. -/
def hexChar (d : Fin 16) : Char :=
  hexDigits.get (d.cast (by rfl))

/-- The value of a hexadecimal digit of either case. -/
def hexValue? (c : Char) : Option (Fin 16) :=
  if '0' ≤ c ∧ c ≤ '9' then some (Fin.ofNat 16 (c.toNat - 48))
  else if 'a' ≤ c ∧ c ≤ 'f' then some (Fin.ofNat 16 (c.toNat - 87))
  else if 'A' ≤ c ∧ c ≤ 'F' then some (Fin.ofNat 16 (c.toNat - 55))
  else none

/-- A hexadecimal digit reads back as its value. -/
@[simp]
theorem hexValue?_hexChar (d : Fin 16) : hexValue? (hexChar d) = some d := by
  revert d
  decide

/-- The lowest hexadecimal digits of a number, as many as the width says. -/
def hexNumeral : (width : Nat) → Nat → List Char
  | 0, _ => []
  | width + 1, n => hexNumeral width (n / 16) ++ [hexChar (Fin.ofNat 16 n)]

@[simp]
theorem length_hexNumeral (width n : Nat) : (hexNumeral width n).length = width := by
  induction width generalizing n with
  | zero => rfl
  | succ width ih => simp [hexNumeral, ih]

/-- The number that a sequence of hexadecimal digits denotes. -/
def hexNumber? (digits : List Char) : Option Nat :=
  digits.foldlM (fun n c => (hexValue? c).map fun d => 16 * n + d.val) 0

/-- One digit more at the end adds to sixteen times what the digits before it denote. -/
theorem hexNumber?_concat (digits : List Char) (c : Char) :
    hexNumber? (digits ++ [c]) =
      (hexNumber? digits).bind fun n => (hexValue? c).map fun d => 16 * n + d.val := by
  rw [hexNumber?, List.foldlM_append]
  refine bind_congr fun n => ?_
  exact bind_pure _

/-- A fixed-width numeral denotes the number it was made from, as far as it fits. -/
theorem hexNumber?_hexNumeral (width n : Nat) :
    hexNumber? (hexNumeral width n) = some (n % Nat.pow 16 width) := by
  induction width generalizing n with
  | zero => simp [hexNumber?, hexNumeral, Nat.pow, Nat.mod_one]
  | succ width ih =>
    have hpow : Nat.pow 16 (width + 1) = 16 * Nat.pow 16 width := Nat.mul_comm _ 16
    rw [hexNumeral, hexNumber?_concat, ih, Option.bind_some, hexValue?_hexChar, Option.map_some,
      Fin.val_ofNat, hpow, Nat.mod_mul]
    congr 1
    omega

/-- The digits in lower case are those that numbers below sixteen have. -/
theorem mem_hexDigits_iff {c : Char} : c ∈ hexDigits ↔ ∃ d, c = hexChar d := by
  constructor
  · intro h
    obtain ⟨place, rfl⟩ := List.get_of_mem h
    exact ⟨place.cast (by rfl), rfl⟩
  · rintro ⟨d, rfl⟩
    exact List.get_mem hexDigits _

/-- The digits of a numeral are in lower case. -/
theorem mem_hexDigits_of_mem_hexNumeral {c : Char} {width n : Nat} (h : c ∈ hexNumeral width n) :
    c ∈ hexDigits := by
  induction width generalizing n with
  | zero => cases h
  | succ width ih =>
    rcases List.mem_append.mp h with hhigher | hlast
    · exact ih hhigher
    · exact mem_hexDigits_iff.mpr ⟨_, List.mem_singleton.mp hlast⟩

end PhasedInduction.Text
