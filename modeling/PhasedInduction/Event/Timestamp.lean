import PhasedInduction.Json.Basic
import PhasedInduction.Text.Blank
import PhasedInduction.Text.Numeral

/-!
# Timestamps

A point in time with a date, a time of day and a fraction of a second down to
nanoseconds, in universal time.  A second numbered sixty is a leap second.

The text that is written has a {lit}`T` between date and time, a {lit}`Z` at the end, and a fraction
with the fewest of zero, three, six or nine digits that lose nothing.  The texts that are
read are more: the separator may be a space, numbers may lack leading zeros, spaces may
stand before numbers, and an offset from universal time may stand at the end.

Main results:

- Theorem {lit}`Timestamp.daysBeforeMonth_thirteen`: the months of a year have 365 days, or
  one more if there is a leap day.
-/

namespace PhasedInduction

/-- A point in universal time: days since the start of 1970, minutes since midnight,
seconds and nanoseconds. -/
structure Timestamp where
  day : Int
  minute : Nat
  second : Nat
  nanosecond : Nat
deriving DecidableEq, Repr

namespace Timestamp

/-! ## Calendar -/

/-- Whether a year has a leap day. -/
def isLeap (year : Int) : Bool :=
  year % 4 = 0 && (year % 100 ≠ 0 || year % 400 = 0)

/-- The lengths of the months of a year without leap day. -/
def monthLengths : List Nat := [31, 28, 31, 30, 31, 30, 31, 31, 30, 31, 30, 31]

/-- The number of days of a month, counted from one. -/
def daysInMonth (year : Int) (month : Nat) : Nat :=
  if month = 2 ∧ isLeap year then 29 else monthLengths.getD (month - 1) 0

/-- The number of days before a year, from the start of the year zero. -/
def daysBeforeYear (year : Int) : Int :=
  let y := year - 1
  365 * year + y.fdiv 4 - y.fdiv 100 + y.fdiv 400 + 1

/-- The number of days before a month in its year. -/
def daysBeforeMonth (year : Int) (month : Nat) : Nat :=
  (List.range (month - 1)).foldl (fun days m => days + daysInMonth year (m + 1)) 0

/-- The months of a year have 365 days, or one more if there is a leap day. -/
theorem daysBeforeMonth_thirteen (year : Int) :
    daysBeforeMonth year 13 = if isLeap year then 366 else 365 := by
  cases h : isLeap year <;>
    simp [daysBeforeMonth, daysInMonth, monthLengths, h, List.range_succ]

/-- The day of a date, counted from the start of 1970. -/
def dayOf (year : Int) (month day : Nat) : Int :=
  daysBeforeYear year + daysBeforeMonth year month + (day - 1) - daysBeforeYear 1970

/-- The year that a day lies in.  An estimate from the mean length of a year is at most
one year off. -/
def yearOf (day : Int) : Int :=
  let days := day + daysBeforeYear 1970
  let estimate := (400 * days).fdiv 146097
  if days < daysBeforeYear estimate then estimate - 1
  else if daysBeforeYear (estimate + 1) ≤ days then estimate + 1
  else estimate

/-- The month of a year, and the day in it, for a day counted from the start of the year;
{lit}`month` is the first month that is tried. -/
def monthAndDay (year : Int) : (months month dayOfYear : Nat) → Nat × Nat
  | 0, month, dayOfYear => (month, dayOfYear + 1)
  | months + 1, month, dayOfYear =>
    if dayOfYear < daysInMonth year month then (month, dayOfYear + 1)
    else monthAndDay year months (month + 1) (dayOfYear - daysInMonth year month)

/-! ## Writing -/

/-- A number with at least the given digits. -/
def digits (width n : Nat) : List Char :=
  Text.padded width (Text.decimal n)

/-- A year: four digits, and a sign outside of those that have four. -/
def yearText (year : Int) : List Char :=
  if 0 ≤ year ∧ year ≤ 9999 then digits 4 year.toNat
  else (if year < 0 then '-' else '+') :: digits 4 year.natAbs

/-- The fraction of a second in the fewest groups of three digits. -/
def fractionText (nanosecond : Nat) : List Char :=
  if nanosecond = 0 then []
  else if nanosecond % 1000000 = 0 then '.' :: digits 3 (nanosecond / 1000000)
  else if nanosecond % 1000 = 0 then '.' :: digits 6 (nanosecond / 1000)
  else '.' :: digits 9 nanosecond

/-- The text of a timestamp. -/
def text (t : Timestamp) : String :=
  let year := yearOf t.day
  let (month, day) := monthAndDay year 12 1 (t.day - dayOf year 1 1).toNat
  String.ofList (yearText year ++ '-' :: digits 2 month ++ '-' :: digits 2 day
    ++ 'T' :: digits 2 (t.minute / 60) ++ ':' :: digits 2 (t.minute % 60)
    ++ ':' :: digits 2 t.second ++ fractionText t.nanosecond ++ ['Z'])

/-! ## Reading -/

/-- A number of up to {lit}`width` digits, after spaces. -/
def number? (width : Nat) (s : List Char) : Option (Nat × List Char) :=
  let s := Text.trimStart s
  let ds := (s.take width).takeWhile Text.isDecimal
  if ds.isEmpty then none else some (Text.decimalValue ds, s.drop ds.length)

/-- A year: a sign and any number of digits, or up to four digits. -/
def year? (s : List Char) : Option (Int × List Char) :=
  match Text.trimStart s with
  | '-' :: rest => signed rest fun n => -(Int.ofNat n)
  | '+' :: rest => signed rest Int.ofNat
  | s => (number? 4 s).map fun (n, rest) => (Int.ofNat n, rest)
where
  signed (rest : List Char) (make : Nat → Int) : Option (Int × List Char) :=
    match rest.span Text.isDecimal with
    | ([], _) => none
    | (ds, rest) => some (make (Text.decimalValue ds), rest)

/-- The text after a character, with spaces before it. -/
def after? (c : Char) (s : List Char) : Option (List Char) :=
  match Text.trimStart s with
  | d :: rest => if d = c then some rest else none
  | [] => none

/-- The nanoseconds of a fraction of a second; digits after the ninth do not count. -/
def fraction? (s : List Char) : Option (Nat × List Char) :=
  match s with
  | '.' :: rest =>
    match rest.span Text.isDecimal with
    | ([], _) => none
    | (ds, rest) =>
      let kept := ds.take 9
      some (Text.decimalValue kept * Nat.pow 10 (9 - kept.length), rest)
  | _ => some (0, s)

/-- The minutes of an offset: a sign, two digits for hours, and two for minutes with
colons and spaces between them, if any. -/
def signedOffset? (s : List Char) : Option (Int × List Char) :=
  match s with
  | [] => none
  | sign :: rest =>
    if sign = '+' ∨ sign = '-' ∨ sign = '\u2212' then
      match rest with
      | h1 :: h2 :: rest =>
        if Text.isDecimal h1 ∧ Text.isDecimal h2 then
          match rest.dropWhile fun c => c = ':' || Text.isBlank c with
          | m1 :: m2 :: rest =>
            if Text.isDecimal m1 ∧ Text.isDecimal m2 ∧ m1 < '6' then
              let size : Int := Int.ofNat
                (60 * Text.decimalValue [h1, h2] + Text.decimalValue [m1, m2])
              if size < 1440 then some (if sign = '+' then size else -size, rest) else none
            else none
          | _ => none
        else none
      | _ => none
    else none

/-- An offset from universal time, in minutes. -/
def offset? (s : List Char) : Option (Int × List Char) :=
  match s with
  | 'Z' :: rest => some (0, rest)
  | 'z' :: rest => some (0, rest)
  | a :: b :: c :: rest =>
    if a.toUpper = 'U' ∧ b.toUpper = 'T' ∧ c.toUpper = 'C' then some (0, rest)
    else signedOffset? s
  | _ => signedOffset? s

/-- The first and the last year of the calendar. -/
def yearLimits : Int × Int := (-262143, 262142)

/-- Whether a day is in the calendar. -/
def inCalendar (day : Int) : Bool :=
  dayOf yearLimits.1 1 1 ≤ day && day ≤ dayOf yearLimits.2 12 31

/-- The timestamp of a text. -/
def ofText? (s : String) : Option Timestamp := do
  let (year, s) ← year? s.toList
  let s ← after? '-' s
  let (month, s) ← number? 2 s
  let s ← after? '-' s
  let (day, s) ← number? 2 s
  let s ← match s with
    | c :: rest => if c = 't' ∨ c = 'T' ∨ c = ' ' then some rest else none
    | [] => none
  let (hour, s) ← number? 2 s
  let s ← after? ':' s
  let (minute, s) ← number? 2 s
  let s ← after? ':' s
  let (second, s) ← number? 2 s
  let (nanosecond, s) ← fraction? s
  let (offset, s) ← offset? (Text.trimStart s)
  if (Text.trimStart s).isEmpty
      ∧ yearLimits.1 ≤ year ∧ year ≤ yearLimits.2
      ∧ 1 ≤ month ∧ month ≤ 12 ∧ 1 ≤ day ∧ day ≤ daysInMonth year month
      ∧ hour ≤ 23 ∧ minute ≤ 59 ∧ second ≤ 60 then
    let minutes : Int := Int.ofNat (60 * hour + minute) - offset
    let day := dayOf year month day + minutes.fdiv 1440
    if inCalendar day then
      return { day, minute := (minutes.fmod 1440).toNat, second, nanosecond }
    else none
  else none

/-- A timestamp as its text. -/
def toJson (t : Timestamp) : Json := .string t.text

/-- The timestamp of a text. -/
def ofJson? (j : Json) : Option Timestamp := j.string?.bind ofText?

end Timestamp

end PhasedInduction
