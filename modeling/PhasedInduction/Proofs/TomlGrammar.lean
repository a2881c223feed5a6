import Mathlib.Data.Bool.AllAny
import PhasedInduction.Toml.Parser

/-!
# The grammar of TOML documents

How the parts of a document are spelled, as relations between what they denote and their texts.
They follow version 1.0 of the format, for strings in all four forms, integers in four bases,
floats, date-times, arrays over several lines, inline tables, and dotted or quoted keys.

A value nests at most as deep as its height says.  The relations have the limits of the format and
of its reader: integers have 64 bits, no positive float is rounded to infinity, and dotted keys have
fewer parts than the nesting limit.

Main results:

- Definition {lit}`Spells`: the spellings of a value.
- Definition {lit}`SpellsDocument`: the spellings of the statements of a document.
-/

namespace PhasedInduction.Toml

/-! ## Blanks, line ends and comments -/

/-- Spaces and tabs. -/
def IsBlank (s : List Char) : Prop := ∀ c ∈ s, isSpace c = true

instance (s : List Char) : Decidable (IsBlank s) := List.decidableBAll _ s

theorem isBlank_nil : IsBlank [] := nofun

/-- The end of a line. -/
inductive IsNewline : List Char → Prop
  | feed : IsNewline ['\n']
  | returnFeed : IsNewline ['\r', '\n']

/-- The end of a line is a character at least. -/
theorem IsNewline.length_pos {n : List Char} (h : IsNewline n) : 0 < n.length := by
  cases h <;> decide

/-- A comment, without the end of its line. -/
inductive IsComment : List Char → Prop
  | intro {body : List Char} (hbody : ∀ c ∈ body, isPlain c = true) : IsComment ('#' :: body)

/-- Spaces, tabs and line ends. -/
inductive IsGap : List Char → Prop
  | nil : IsGap []
  | space {c : Char} {s : List Char} (hc : isSpace c = true) (hs : IsGap s) : IsGap (c :: s)
  | newline {n s : List Char} (hn : IsNewline n) (hs : IsGap s) : IsGap (n ++ s)

/-- Spaces, tabs, line ends and comments, as they may stand around the items of an array. -/
inductive IsTrivia : List Char → Prop
  | nil : IsTrivia []
  | space {c : Char} {s : List Char} (hc : isSpace c = true) (hs : IsTrivia s) : IsTrivia (c :: s)
  | newline {n s : List Char} (hn : IsNewline n) (hs : IsTrivia s) : IsTrivia (n ++ s)
  | comment {comment n s : List Char} (hcomment : IsComment comment) (hn : IsNewline n)
      (hs : IsTrivia s) : IsTrivia (comment ++ (n ++ s))

/-- What may stand behind a statement on its line. -/
inductive IsLineTail : List Char → Prop
  | blank {s : List Char} (hs : IsBlank s) : IsLineTail s
  | comment {s comment : List Char} (hs : IsBlank s) (hcomment : IsComment comment) :
      IsLineTail (s ++ comment)

theorem isLineTail_nil : IsLineTail [] := .blank isBlank_nil

/-! ## Strings -/

/-- The characters that have an escape of one letter. -/
def escapeLetters : List (Char × Char) :=
  [('\x08', 'b'), ('\t', 't'), ('\n', 'n'), ('\x0c', 'f'), ('\r', 'r'), ('"', '"'), ('\\', '\\')]

/-- How a character is spelled behind a backslash. -/
inductive SpellsEscape (c : Char) : List Char → Prop
  | letter {l : Char} (h : (c, l) ∈ escapeLetters) : SpellsEscape c [l]
  | short {digits : List Char} (hlength : digits.length = 4)
      (hnumber : Text.hexNumber? digits = some c.toNat) : SpellsEscape c ('u' :: digits)
  | long {digits : List Char} (hlength : digits.length = 8)
      (hnumber : Text.hexNumber? digits = some c.toNat) : SpellsEscape c ('U' :: digits)

/-- How a text is spelled between the quotes of a basic string on one line. -/
inductive SpellsBasic : List Char → List Char → Prop
  | nil : SpellsBasic [] []
  | plain {c : Char} {s t : List Char} (hplain : isPlain c = true) (hquote : c ≠ '"')
      (hbackslash : c ≠ '\\') (h : SpellsBasic s t) : SpellsBasic (c :: s) (c :: t)
  | escape {c : Char} {code s t : List Char} (hcode : SpellsEscape c code) (h : SpellsBasic s t) :
      SpellsBasic (c :: s) ('\\' :: (code ++ t))

/-- Whether a text can stand between the quotes of a literal string on one line. -/
def IsLiteral (s : List Char) : Prop := ∀ c ∈ s, c ≠ '\'' ∧ isPlain c = true

/-- How a text is spelled between the quotes of a string of several lines, behind a number of
quotes in a row.  No three quotes stand in a row.  Only a basic string has escapes, and backslashes
that fold lines. -/
inductive SpellsLines (quote : Char) : (quotes : Nat) → List Char → List Char → Prop
  | nil {quotes : Nat} : SpellsLines quote quotes [] []
  | quote {quotes : Nat} {s t : List Char} (hquotes : quotes < 2)
      (h : SpellsLines quote (quotes + 1) s t) :
      SpellsLines quote quotes (quote :: s) (quote :: t)
  | plain {quotes : Nat} {c : Char} {s t : List Char} (hplain : isPlain c = true)
      (hquote : c ≠ quote) (hbackslash : quote = '"' → c ≠ '\\') (h : SpellsLines quote 0 s t) :
      SpellsLines quote quotes (c :: s) (c :: t)
  | newline {quotes : Nat} {n s t : List Char} (hn : IsNewline n) (h : SpellsLines quote 0 s t) :
      SpellsLines quote quotes ('\n' :: s) (n ++ t)
  | escape {quotes : Nat} {c : Char} {code s t : List Char} (hbasic : quote = '"')
      (hcode : SpellsEscape c code) (h : SpellsLines quote 0 s t) :
      SpellsLines quote quotes (c :: s) ('\\' :: (code ++ t))
  | fold {quotes : Nat} {blank n gap s t : List Char} (hbasic : quote = '"')
      (hblank : IsBlank blank) (hn : IsNewline n) (hgap : IsGap gap)
      (hstart : ∀ c ∈ t.head?, isSpace c = false ∧ c ≠ '\n' ∧ c ≠ '\r')
      (h : SpellsLines quote 0 s t) :
      SpellsLines quote quotes s ('\\' :: (blank ++ (n ++ (gap ++ t))))

/-- How a text is spelled as a string.  A line end behind the opening quotes of several lines is no
part of the text. -/
inductive SpellsString : List Char → List Char → Prop
  | basic {s t : List Char} (h : SpellsBasic s t) : SpellsString s ('"' :: (t ++ ['"']))
  | literal {s : List Char} (h : IsLiteral s) : SpellsString s ('\'' :: (s ++ ['\'']))
  | lines {quote : Char} {opening s t : List Char} (hquote : quote = '"' ∨ quote = '\'')
      (hopening : IsNewline opening ∨ opening = [] ∧ ∀ n, IsNewline n → ¬n <+: t)
      (h : SpellsLines quote 0 s t) :
      SpellsString s (quote :: quote :: quote :: (opening ++ (t ++ [quote, quote, quote])))

/-! ## Numbers -/

/-- How digits are spelled: each but the last may have an underscore behind it. -/
inductive SpellsDigits (isDigit : Char → Bool) : List Char → List Char → Prop
  | last {d : Char} (hd : isDigit d = true) : SpellsDigits isDigit [d] [d]
  | cons {d : Char} {digits t : List Char} (hd : isDigit d = true)
      (h : SpellsDigits isDigit digits t) : SpellsDigits isDigit (d :: digits) (d :: t)
  | underscore {d : Char} {digits t : List Char} (hd : isDigit d = true)
      (h : SpellsDigits isDigit digits t) : SpellsDigits isDigit (d :: digits) (d :: '_' :: t)

/-- How a sign is spelled. -/
inductive SpellsSign : (negative : Bool) → List Char → Prop
  | none : SpellsSign false []
  | plus : SpellsSign false ['+']
  | minus : SpellsSign true ['-']

/-- A number with a sign. -/
def signed (negative : Bool) (n : Nat) : Int := if negative then -Int.ofNat n else Int.ofNat n

/-- How the digits in front of a decimal point are spelled: a zero stands alone. -/
inductive SpellsWhole : List Char → List Char → Prop
  | zero : SpellsWhole ['0'] ['0']
  | digits {digits t : List Char} (h : SpellsDigits Text.isDecimal digits t)
      (hzero : t.head? ≠ some '0') : SpellsWhole digits t

/-- The letters of the bases other than ten. -/
def baseLetters : List (Char × Nat) := [('x', 16), ('o', 8), ('b', 2)]

/-- How an integer is spelled. -/
inductive SpellsInteger : Int → List Char → Prop
  | decimal {negative : Bool} {mark digits t : List Char} (hsign : SpellsSign negative mark)
      (hdigits : SpellsWhole digits t) :
      SpellsInteger (signed negative (Text.decimalValue digits)) (mark ++ t)
  | based {letter : Char} {base : Nat} {digits t : List Char}
      (hbase : (letter, base) ∈ baseLetters)
      (hdigits : SpellsDigits (fun c => (digitOf? base c).isSome) digits t) :
      SpellsInteger (Int.ofNat (valueIn base digits)) ('0' :: letter :: t)

/-- How a fraction is spelled, if there is one. -/
inductive SpellsFraction : List Char → List Char → Prop
  | none : SpellsFraction [] []
  | point {digits t : List Char} (h : SpellsDigits Text.isDecimal digits t) :
      SpellsFraction digits ('.' :: t)

/-- How an exponent is spelled, if there is one. -/
inductive SpellsExponent : Int → List Char → Prop
  | none : SpellsExponent 0 []
  | power {e : Char} {negative : Bool} {mark digits t : List Char} (he : e = 'e' ∨ e = 'E')
      (hsign : SpellsSign negative mark) (h : SpellsDigits Text.isDecimal digits t) :
      SpellsExponent (signed negative (Text.decimalValue digits)) (e :: (mark ++ t))

/-- Whether a number times a power of ten is too small to be rounded to infinity. -/
def IsFinite (n : Nat) (exponent : Int) : Prop :=
  n * Nat.pow 10 exponent.toNat < infinityBound * Nat.pow 10 (-exponent).toNat

instance (n : Nat) (exponent : Int) : Decidable (IsFinite n exponent) := Nat.decLt _ _

/-- How a float is spelled: with a fraction or an exponent, or as a word. -/
inductive SpellsFloat : List Char → Prop
  | decimal {negative : Bool} {mark whole w fraction f e : List Char} {exponent : Int}
      (hsign : SpellsSign negative mark) (hwhole : SpellsWhole whole w)
      (hfraction : SpellsFraction fraction f) (hexponent : SpellsExponent exponent e)
      (hfloat : f ++ e ≠ [])
      (hfinite : negative = false →
        IsFinite (Text.decimalValue (whole ++ fraction)) (exponent - fraction.length)) :
      SpellsFloat (mark ++ (w ++ (f ++ e)))
  | word {negative : Bool} {mark word : List Char} (hsign : SpellsSign negative mark)
      (hword : word = ['i', 'n', 'f'] ∨ word = ['n', 'a', 'n']) : SpellsFloat (mark ++ word)

/-! ## Date-times -/

/-- Whether a text has exactly so many decimal digits, and they denote a number in a range. -/
structure IsNumber (width low high : Nat) (t : List Char) : Prop where
  length_eq : t.length = width
  isDecimal : ∀ c ∈ t, Text.isDecimal c = true
  low_le : low ≤ Text.decimalValue t
  le_high : Text.decimalValue t ≤ high

instance (width low high : Nat) (t : List Char) : Decidable (IsNumber width low high t) :=
  decidable_of_iff (t.length = width ∧ t.all Text.isDecimal = true ∧
      low ≤ Text.decimalValue t ∧ Text.decimalValue t ≤ high)
    ⟨fun ⟨hlength, hdecimal, hlow, hhigh⟩ =>
        ⟨hlength, List.all_eq_true.mp hdecimal, hlow, hhigh⟩,
      fun ⟨hlength, hdecimal, hlow, hhigh⟩ =>
        ⟨hlength, List.all_eq_true.mpr hdecimal, hlow, hhigh⟩⟩

/-- How a date is spelled. -/
inductive SpellsDate : List Char → Prop
  | intro {year month day : List Char} (hyear : IsNumber 4 0 9999 year)
      (hmonth : IsNumber 2 1 12 month)
      (hday : IsNumber 2 1 (daysInMonth (Text.decimalValue year) (Text.decimalValue month)) day) :
      SpellsDate (year ++ '-' :: (month ++ '-' :: day))

/-- How the fraction of a second is spelled, if there is one. -/
inductive SpellsSecondFraction : List Char → Prop
  | none : SpellsSecondFraction []
  | point {d : Char} {digits : List Char} (hd : Text.isDecimal d = true)
      (hdigits : ∀ c ∈ digits, Text.isDecimal c = true) : SpellsSecondFraction ('.' :: d :: digits)

/-- How a time of day is spelled. -/
inductive SpellsTime : List Char → Prop
  | intro {hour minute second fraction : List Char} (hhour : IsNumber 2 0 23 hour)
      (hminute : IsNumber 2 0 59 minute) (hsecond : IsNumber 2 0 60 second)
      (hfraction : SpellsSecondFraction fraction) :
      SpellsTime (hour ++ ':' :: (minute ++ ':' :: (second ++ fraction)))

/-- How an offset from universal time is spelled, if there is one. -/
inductive SpellsOffset : List Char → Prop
  | none : SpellsOffset []
  | universal {z : Char} (hz : z = 'Z' ∨ z = 'z') : SpellsOffset [z]
  | hours {mark : Char} {hour minute : List Char} (hmark : mark = '+' ∨ mark = '-')
      (hhour : IsNumber 2 0 23 hour) (hminute : IsNumber 2 0 59 minute) :
      SpellsOffset (mark :: (hour ++ ':' :: minute))

/-- How a date, a time or both are spelled. -/
inductive SpellsDateTime : List Char → Prop
  | date {date : List Char} (hdate : SpellsDate date) : SpellsDateTime date
  | time {time : List Char} (htime : SpellsTime time) : SpellsDateTime time
  | both {separator : Char} {date time offset : List Char} (hdate : SpellsDate date)
      (hseparator : separator = 'T' ∨ separator = 't' ∨ separator = ' ') (htime : SpellsTime time)
      (hoffset : SpellsOffset offset) : SpellsDateTime (date ++ separator :: (time ++ offset))

/-! ## Keys -/

/-- How one part of a key is spelled: without quotes, or as a string on one line. -/
inductive SpellsName : String → List Char → Prop
  | bare {name : String} (hne : name.toList ≠ []) (hbare : ∀ c ∈ name.toList, isBareKey c = true) :
      SpellsName name name.toList
  | basic {name : String} {t : List Char} (h : SpellsBasic name.toList t) :
      SpellsName name ('"' :: (t ++ ['"']))
  | literal {name : String} (h : IsLiteral name.toList) :
      SpellsName name ('\'' :: (name.toList ++ ['\'']))

/-- How a dotted key is spelled, with blanks around its parts. -/
inductive SpellsKey : List String → List Char → Prop
  | last {name : String} {before t behind : List Char} (hbefore : IsBlank before)
      (hname : SpellsName name t) (hbehind : IsBlank behind) :
      SpellsKey [name] (before ++ (t ++ behind))
  | cons {name : String} {names : List String} {before t behind more : List Char}
      (hbefore : IsBlank before) (hname : SpellsName name t) (hbehind : IsBlank behind)
      (h : SpellsKey names more) :
      SpellsKey (name :: names) (before ++ (t ++ (behind ++ '.' :: more)))

/-! ## Values -/

mutual

/-- How a value is spelled that nests at most as deep as its height says. -/
inductive Spells : (height : Nat) → Item → List Char → Prop
  | string {height : Nat} {s : String} {t : List Char} (h : SpellsString s.toList t) :
      Spells height (.string s) t
  | integer {height : Nat} {n : Int} {t : List Char} (h : SpellsInteger n t)
      (hfits : -9223372036854775808 ≤ n ∧ n ≤ 9223372036854775807) : Spells height (.integer n) t
  | float {height : Nat} {t : List Char} (h : SpellsFloat t) :
      Spells height (.float (String.ofList t)) t
  | yes {height : Nat} : Spells height (.boolean true) ['t', 'r', 'u', 'e']
  | no {height : Nat} : Spells height (.boolean false) ['f', 'a', 'l', 's', 'e']
  | dateTime {height : Nat} {t : List Char} (h : SpellsDateTime t) :
      Spells height (.dateTime (String.ofList t)) t
  | array {height : Nat} {items : List Item} {t : List Char} (h : SpellsItems height items t) :
      Spells (height + 1) (.array items) ('[' :: t)
  | emptyTable {height : Nat} {blank : List Char} (hblank : IsBlank blank) :
      Spells (height + 1) (.table .inline []) ('\x7b' :: (blank ++ ['\x7d']))
  | table {height : Nat} {assignments : List (List String × String × Item)} {item : Item}
      {t : List Char} (h : SpellsAssignments height assignments t)
      (hbuild : buildInline assignments = some item) : Spells (height + 1) item ('\x7b' :: t)

/-- How the items of an array are spelled, up to its closing bracket. -/
inductive SpellsItems : (height : Nat) → List Item → List Char → Prop
  | nil {height : Nat} {gap : List Char} (hgap : IsTrivia gap) :
      SpellsItems height [] (gap ++ [']'])
  | last {height : Nat} {item : Item} {before t behind : List Char} (hbefore : IsTrivia before)
      (hitem : Spells height item t) (hbehind : IsTrivia behind) :
      SpellsItems height [item] (before ++ (t ++ (behind ++ [']'])))
  | cons {height : Nat} {item : Item} {items : List Item} {before t behind more : List Char}
      (hbefore : IsTrivia before) (hitem : Spells height item t) (hbehind : IsTrivia behind)
      (h : SpellsItems height items more) :
      SpellsItems height (item :: items) (before ++ (t ++ (behind ++ ',' :: more)))

/-- How the assignments of an inline table are spelled, up to its closing brace. -/
inductive SpellsAssignments : (height : Nat) → List (List String × String × Item) → List Char → Prop
  | last {height : Nat} {path : List String} {key : String} {item : Item}
      {k before t behind : List Char} (hkey : SpellsKey (path ++ [key]) k)
      (hparts : path.length + 1 < nestingLimit) (hbefore : IsBlank before)
      (hitem : Spells height item t) (hbehind : IsBlank behind) :
      SpellsAssignments height [(path, key, item)]
        (k ++ '=' :: (before ++ (t ++ (behind ++ ['\x7d']))))
  | cons {height : Nat} {path : List String} {key : String} {item : Item}
      {assignments : List (List String × String × Item)} {k before t behind more : List Char}
      (hkey : SpellsKey (path ++ [key]) k) (hparts : path.length + 1 < nestingLimit)
      (hbefore : IsBlank before) (hitem : Spells height item t) (hbehind : IsBlank behind)
      (h : SpellsAssignments height assignments more) :
      SpellsAssignments height ((path, key, item) :: assignments)
        (k ++ '=' :: (before ++ (t ++ (behind ++ ',' :: more))))

end

/-! ## Documents -/

/-- How a statement is spelled. -/
inductive SpellsStatement : Statement → List Char → Prop
  | assign {path : List String} {key : String} {height : Nat} {item : Item} {k before t : List Char}
      (hkey : SpellsKey (path ++ [key]) k) (hparts : path.length + 1 < nestingLimit)
      (hbefore : IsBlank before) (hitem : Spells height item t) (hheight : height < nestingLimit) :
      SpellsStatement (.assign path key item) (k ++ '=' :: (before ++ t))
  | header {path : List String} {k : List Char} (hkey : SpellsKey path k)
      (hparts : path.length < nestingLimit) : SpellsStatement (.header path) ('[' :: (k ++ [']']))
  | element {path : List String} {k : List Char} (hkey : SpellsKey path k)
      (hparts : path.length < nestingLimit) :
      SpellsStatement (.element path) ('[' :: '[' :: (k ++ [']', ']']))

/-- How the statements of a document are spelled: each on a line of its own, with lines between
them that are empty or hold a comment. -/
inductive SpellsDocument : List Statement → List Char → Prop
  | nil {tail : List Char} (htail : IsLineTail tail) : SpellsDocument [] tail
  | empty {statements : List Statement} {tail n more : List Char} (htail : IsLineTail tail)
      (hn : IsNewline n) (h : SpellsDocument statements more) :
      SpellsDocument statements (tail ++ (n ++ more))
  | last {statement : Statement} {before t tail : List Char} (hbefore : IsBlank before)
      (hstatement : SpellsStatement statement t) (htail : IsLineTail tail) :
      SpellsDocument [statement] (before ++ (t ++ tail))
  | cons {statement : Statement} {statements : List Statement} {before t tail n more : List Char}
      (hbefore : IsBlank before) (hstatement : SpellsStatement statement t)
      (htail : IsLineTail tail) (hn : IsNewline n) (h : SpellsDocument statements more) :
      SpellsDocument (statement :: statements) (before ++ (t ++ (tail ++ (n ++ more))))

end PhasedInduction.Toml
