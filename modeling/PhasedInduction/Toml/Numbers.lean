import PhasedInduction.Text.Numeral
import PhasedInduction.Toml.Item

/-!
# TOML numbers and date-times

Integers of 64 bits with sign in four bases, floats, and date-times.  Digits may be
grouped by single underscores.  Every reader takes the text from the first character
on and gives what it read with what is left.
-/

namespace PhasedInduction.Toml

/-! ## Digits -/

/-- The digits that follow a digit: each may have an underscore before it. -/
def moreDigits (isDigit : Char → Bool) : List Char → List Char × List Char
  | [] => ([], [])
  | c :: rest =>
    if isDigit c then
      let (digits, rest) := moreDigits isDigit rest
      (c :: digits, rest)
    else
      match rest with
      | d :: more =>
        if c = '_' ∧ isDigit d then
          let (digits, rest) := moreDigits isDigit more
          (d :: digits, rest)
        else ([], c :: rest)
      | [] => ([], [c])

/-- One digit or more. -/
def digits? (isDigit : Char → Bool) : List Char → Option (List Char × List Char)
  | [] => none
  | c :: rest =>
    if isDigit c then
      let (digits, rest) := moreDigits isDigit rest
      some (c :: digits, rest)
    else none

/-- The sign at the start of a text, if any: whether it is a minus. -/
def sign : List Char → Bool × List Char
  | '+' :: rest => (false, rest)
  | '-' :: rest => (true, rest)
  | s => (false, s)

/-- Decimal digits without a leading zero. -/
def wholeDigits? : List Char → Option (List Char × List Char)
  | '0' :: rest => some (['0'], rest)
  | s => digits? Text.isDecimal s

/-! ## Integers -/

/-- An integer if it fits into 64 bits with sign. -/
def integer? (n : Int) : Option Item :=
  if -9223372036854775808 ≤ n ∧ n ≤ 9223372036854775807 then some (.integer n) else none

/-- The value of a digit in a base up to sixteen. -/
def digitOf? (base : Nat) (c : Char) : Option Nat :=
  match Text.hexValue? c with
  | some d => if d.val < base then some d.val else none
  | none => none

/-- The number that digits of a base denote. -/
def valueIn (base : Nat) (digits : List Char) : Nat :=
  digits.foldl (fun n c => base * n + (digitOf? base c).getD 0) 0

/-- An integer in a base that is written behind a zero and a letter. -/
def basedInteger? (base : Nat) (s : List Char) : Option (Item × List Char) :=
  match digits? (fun c => (digitOf? base c).isSome) s with
  | some (digits, rest) => (integer? (Int.ofNat (valueIn base digits))).map (·, rest)
  | none => none

/-! ## Floats -/

/-- The fraction at the start of a text, with its digits. -/
def fraction? : List Char → Option (List Char × List Char)
  | '.' :: rest => digits? Text.isDecimal rest
  | s => some ([], s)

/-- The exponent at the start of a text. -/
def exponent? : List Char → Option (Int × List Char)
  | [] => some (0, [])
  | c :: rest =>
    if c = 'e' ∨ c = 'E' then
      let (negative, rest) := sign rest
      match digits? Text.isDecimal rest with
      | some (digits, rest) =>
        let size : Int := Int.ofNat (Text.decimalValue digits)
        some (if negative then -size else size, rest)
      | none => none
    else some (0, c :: rest)

/-- The least number that is rounded to infinity in binary floating point of 64 bits. -/
def infinityBound : Nat := Nat.pow 2 1024 - Nat.pow 2 970

/-- Whether digits times a power of ten are rounded to infinity. -/
def roundsToInfinity (digits : List Char) (exponent : Int) : Bool :=
  let significant := digits.dropWhile (· = '0')
  let magnitude : Int := Int.ofNat significant.length + exponent
  if significant.isEmpty then false
  else if magnitude > 309 then true
  else if magnitude < 309 then false
  else if exponent ≥ 0 then
    Text.decimalValue significant * Nat.pow 10 exponent.toNat ≥ infinityBound
  else Text.decimalValue significant ≥ infinityBound * Nat.pow 10 (-exponent).toNat

/-- The spelling of what was read between two texts. -/
def spelling (s rest : List Char) : String :=
  String.ofList (s.take (s.length - rest.length))

/-- A decimal integer or a float.  A float with a fraction or an exponent must not be
rounded to positive infinity. -/
def decimalNumber? (s : List Char) : Option (Item × List Char) :=
  let (negative, unsigned) := sign s
  match wholeDigits? unsigned with
  | none => none
  | some (whole, rest) =>
    match fraction? rest with
    | none => none
    | some (fraction, afterFraction) =>
      match exponent? afterFraction with
      | none => none
      | some (exponent, afterExponent) =>
        if afterExponent.length = rest.length then
          let size : Int := Int.ofNat (Text.decimalValue whole)
          (integer? (if negative then -size else size)).map (·, rest)
        else if !negative
            && roundsToInfinity (whole ++ fraction) (exponent - fraction.length) then none
        else some (.float (spelling s afterExponent), afterExponent)

/-- The words for infinity and for no number. -/
def specialFloat? (s : List Char) : Option (Item × List Char) :=
  match (sign s).2 with
  | 'i' :: 'n' :: 'f' :: rest => some (.float (spelling s rest), rest)
  | 'n' :: 'a' :: 'n' :: rest => some (.float (spelling s rest), rest)
  | _ => none

/-! ## Date-times -/

/-- The number of exactly as many decimal digits as {lit}`count` says. -/
def fixed? (count : Nat) (s : List Char) : Option (Nat × List Char) :=
  let digits := s.take count
  if digits.length = count ∧ digits.all Text.isDecimal then
    some (Text.decimalValue digits, s.drop count)
  else none

/-- The number of exactly two decimal digits, up to a limit. -/
def twoDigits? (limit : Nat) (s : List Char) : Option (Nat × List Char) :=
  match fixed? 2 s with
  | some (n, rest) => if n ≤ limit then some (n, rest) else none
  | none => none

/-- The text after a character that it has to start with. -/
def after? (c : Char) : List Char → Option (List Char)
  | d :: rest => if d = c then some rest else none
  | [] => none

/-- The number of days of a month. -/
def daysInMonth (year month : Nat) : Nat :=
  if month = 2 then
    if year % 4 = 0 ∧ (year % 100 ≠ 0 ∨ year % 400 = 0) then 29 else 28
  else if month = 4 ∨ month = 6 ∨ month = 9 ∨ month = 11 then 30
  else 31

/-- The text after a date. -/
def date? (s : List Char) : Option (List Char) := do
  let (year, s) ← fixed? 4 s
  let s ← after? '-' s
  let (month, s) ← twoDigits? 12 s
  let s ← after? '-' s
  let (day, s) ← twoDigits? 31 s
  if 1 ≤ month ∧ 1 ≤ day ∧ day ≤ daysInMonth year month then some s else none

/-- The text after the fraction of a second, if there is one. -/
def skipSecondFraction (s : List Char) : List Char :=
  match s with
  | '.' :: c :: rest => if Text.isDecimal c then rest.dropWhile Text.isDecimal else s
  | _ => s

/-- The text after a time of day. -/
def time? (s : List Char) : Option (List Char) := do
  let (_, s) ← twoDigits? 23 s
  let s ← after? ':' s
  let (_, s) ← twoDigits? 59 s
  let s ← after? ':' s
  let (_, s) ← twoDigits? 60 s
  return skipSecondFraction s

/-- The text after an offset from universal time. -/
def offset? : List Char → Option (List Char)
  | 'Z' :: rest => some rest
  | 'z' :: rest => some rest
  | c :: rest =>
    if c = '+' ∨ c = '-' then do
      let (_, s) ← twoDigits? 23 rest
      let s ← after? ':' s
      let (_, s) ← twoDigits? 59 s
      return s
    else none
  | [] => none

/-- The text after the time that may follow a date. -/
def skipTimeOfDate (s : List Char) : List Char :=
  match s with
  | c :: rest =>
    if c = 'T' ∨ c = 't' ∨ c = ' ' then
      match time? rest with
      | some rest => (offset? rest).getD rest
      | none => s
    else s
  | [] => s

/-- A date with or without a time, or a time alone. -/
def dateTime? (s : List Char) : Option (Item × List Char) :=
  match date? s with
  | some rest =>
    let rest := skipTimeOfDate rest
    some (.dateTime (spelling s rest), rest)
  | none =>
    match time? s with
    | some rest => some (.dateTime (spelling s rest), rest)
    | none => none

/-- A number or a date-time. -/
def number? (s : List Char) : Option (Item × List Char) :=
  match dateTime? s with
  | some read => some read
  | none =>
    match s with
    | '0' :: 'x' :: rest => basedInteger? 16 rest
    | '0' :: 'o' :: rest => basedInteger? 8 rest
    | '0' :: 'b' :: rest => basedInteger? 2 rest
    | _ =>
      match decimalNumber? s with
      | some read => some read
      | none => specialFloat? s

end PhasedInduction.Toml
