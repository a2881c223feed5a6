import PhasedInduction.Host.Condition.Basic
import PhasedInduction.Host.Regex
import PhasedInduction.Host.Utility.Options

/-!
# Programs about numbers and expressions

Counting from one number to another, and the values of expressions whose parts are words.

Main results:

- Theorem {lit}`length_steps_le`: counting takes as many steps as it may, at most.
- Theorem {lit}`CountFormat.untilPercent_of_not_mem`: a text without percent sign is read whole.
-/

namespace PhasedInduction.Host

/-! ## Counting -/

/-- A decimal number: a whole number of the smallest of so many places. -/
structure PlacedNumber where
  value : Int
  places : Nat
deriving DecidableEq, Repr

/-- A number in smaller places. -/
def PlacedNumber.scaled (p : PlacedNumber) (places : Nat) : Int :=
  p.value * (Nat.pow 10 (places - p.places) : Nat)

/-- A number of the smallest of so many places, in digits behind its sign. -/
def placedText (places : Nat) (negative : Bool) (n : Nat) : List Char :=
  let digits := Real.pointed places false (Text.decimal n)
  if negative then '-' :: digits else digits

/-- A number in an argument of a count. -/
structure CountOperand where
  value : PlacedNumber
  /-- Whether a minus stands in front of it, which zero may have too. -/
  negative : Bool
  /-- How many places it is written with, unless there are as few as needed. -/
  places : Option Nat
  /-- How wide it is when no power of ten stands behind it. -/
  width : Int
deriving DecidableEq, Repr

namespace CountOperand

/-- A whole number. -/
def whole (n : Nat) : CountOperand := ⟨⟨n, 0⟩, false, some 0, 1⟩

/-- A number that no count reaches. -/
def endless : Int := Nat.pow 10 40

/-- The largest power of ten, up or down, behind a number. -/
def exponentLimit : Nat := 4900

/-- Digits before and after a point with a power of ten. -/
def ofDecimal? (negative : Bool) (whole fraction : List Char) (exponent : Int) :
    Option CountOperand :=
  if (whole.isEmpty ∧ fraction.isEmpty) ∨ exponentLimit < exponent.natAbs then none
  else
    let up := exponent.toNat
    let kept := fraction.length - up
    let places := kept + (-exponent).toNat
    let n : Int := Text.decimalValue (whole ++ fraction) * Nat.pow 10 (up - fraction.length)
    let digits := (if negative then 1 else 0) + max 1 whole.length + fraction.length
    let width := digits + (if places = 0 then 0 else 1) + (up - fraction.length) +
      (-exponent).toNat
    some ⟨⟨if negative then -n else n, places⟩, negative, some places, width⟩

/-- Hexadecimal digits before and after a point with a power of two. -/
def ofHexadecimal? (negative : Bool) (whole fraction : List Char) (exponent : Int)
    (isWhole : Bool) : Option CountOperand :=
  let digits := whole ++ fraction
  if digits.isEmpty ∨ exponentLimit < exponent.natAbs then none
  else
    let n := (EscapeRules.number 16 EscapeRules.hexadecimalValue? 0 digits.length digits).1
    let down := 4 * fraction.length + (-exponent).toNat
    let n : Int := n * Nat.pow 2 exponent.toNat * Nat.pow 5 down
    some
      ⟨⟨if negative then -n else n, down⟩, negative, if isWhole then some 0 else none, 0⟩

/-- The number without a sign that is a whole text. -/
def magnitude? (negative : Bool) (s : List Char) : Option CountOperand :=
  let lower := s.map Char.toLower
  if lower = "inf".toList ∨ lower = "infinity".toList then
    some ⟨⟨if negative then -endless else endless, 0⟩, negative, some 0, 0⟩
  else
    match lower with
    | '0' :: 'x' :: t =>
      let (whole, fraction, rest) := Real.digitsAt Real.isHexadecimal t
      let (exponent, rest) := Real.exponentAt 'p' rest
      if rest.isEmpty then
        ofHexadecimal? negative whole fraction exponent (t.all Real.isHexadecimal)
      else none
    | t =>
      let (whole, fraction, rest) := Real.digitsAt Text.isDecimal t
      let (exponent, rest) := Real.exponentAt 'e' rest
      if rest.isEmpty then ofDecimal? negative whole fraction exponent else none

/-- A word without the blanks and the sign in front of it, and whether the sign is a minus. -/
def unsigned (word : ByteText) : Bool × List Char :=
  match word.toList.dropWhile Integer.isSpace with
  | '-' :: t => (true, t)
  | '+' :: t => (false, t)
  | t => (false, t)

/-- The message about a word that is no number of a count. -/
def complaint (word : ByteText) : ByteText :=
  if (unsigned word).2.map Char.toLower = "nan".toList then
    "invalid " ++ quoted "not-a-number" ++ " argument: " ++ quoted word
  else "invalid floating point argument: " ++ quoted word

/-- The number of a word. -/
def ofWord (word : ByteText) : Except ByteText CountOperand :=
  let (negative, s) := unsigned word
  match magnitude? negative s with
  | some operand => .ok operand
  | none => .error (complaint word)

end CountOperand

/-- The numbers from one to another with steps between them. -/
def steps (step last : Int) : (budget : Nat) → Int → List Int
  | 0, _ => []
  | budget + 1, n =>
    if (0 < step ∧ last < n) ∨ (step < 0 ∧ n < last) then []
    else n :: steps step last budget (n + step)

/-- Counting takes as many steps as it may, at most. -/
theorem length_steps_le (step last : Int) (budget : Nat) (n : Int) :
    (steps step last budget n).length ≤ budget := by
  induction budget generalizing n with
  | zero => simp [steps]
  | succ budget ih =>
    unfold steps
    split
    · simp
    · simpa using ih (n + step)

/-- How many numbers are counted at most. -/
def countLimit : Nat := 200000

/-- A numeral with zeros behind its sign up to a width. -/
def widened (width : Nat) (numeral : List Char) : List Char :=
  match numeral with
  | '-' :: digits => '-' :: Text.padded (width - 1) digits
  | digits => Text.padded width digits

/-! ### Formats of counts -/

/-- How the numbers of a count are printed. -/
structure CountFormat where
  before : List Char
  shape : Format.Shape
  after : List Char
deriving DecidableEq, Repr

namespace CountFormat

/-- A text up to a single percent sign, where two of them stand for one, and what follows the
sign. -/
def untilPercent : List Char → List Char × Option (List Char)
  | [] => ([], none)
  | '%' :: '%' :: s =>
    let (before, after) := untilPercent s
    ('%' :: before, after)
  | '%' :: s => ([], some s)
  | c :: s =>
    let (before, after) := untilPercent s
    (c :: before, after)

/-- The conversions in a format of a count. -/
def rules : FormatRules :=
  { FormatRules.program with flags := ['-', '+', '#', '0', ' ', '\''], lengths := ['L'] }

/-- A width or a number of places that a format gives itself. -/
def given : Extent → Option Nat
  | .given n => some n
  | _ => none

/-- A format that prints one number, or what is wrong with it. -/
def ofText (format : ByteText) : Except ByteText CountFormat :=
  let fault := fun message => "format " ++ quoted format ++ " " ++ message
  match untilPercent format.toList with
  | (_, none) => .error (fault "has no % directive")
  | (before, some rest) =>
    match Format.conversionAt rules rest with
    | (.convert c, rest) =>
      if c.width = .argument ∨ c.precision = .argument then
        .error (fault "has unknown %* directive")
      else if !(['a', 'e', 'f', 'g'].contains c.letter.toLower) then
        .error (fault ("has unknown %" ++ String.singleton c.letter ++ " directive"))
      else
        match untilPercent rest with
        | (after, none) =>
          .ok ⟨before, ⟨c.flags, (given c.width).getD 0, c.flags.contains '-',
            given c.precision, c.letter⟩, after⟩
        | _ => .error (fault "has too many % directives")
    | _ => .error (fault "ends in %")

/-- A number in the shortest form. -/
def shortest : CountFormat := ⟨[], ⟨[], 0, false, none, 'g'⟩, []⟩

/-- A number of the smallest of so many places in a format. -/
def apply (f : CountFormat) (places : Nat) (negative : Bool) (n : Nat) : List Char :=
  let (a, b) := if n = 0 then (0, 1) else Real.binary .extended n (Nat.pow 10 places)
  f.before ++ f.shape.real .extended (.finite negative a b) ++ f.after

/-- A text without percent sign is read whole, and no conversion follows. -/
theorem untilPercent_of_not_mem {s : List Char} (h : '%' ∉ s) : untilPercent s = (s, none) := by
  induction s with
  | nil => rfl
  | cons c s ih =>
    simp only [List.mem_cons, not_or] at h
    have hc : c ≠ '%' := fun h' => h.1 h'.symm
    unfold untilPercent
    split <;> simp_all

end CountFormat

/-- The numerals of a count: in a format, or with the places of its first number and its step,
and as wide as the first and the last number if asked for. -/
def countTexts (format : Option CountFormat) (even : Bool) (first step last : CountOperand) :
    List (List Char) :=
  let all := max (max first.value.places step.value.places) last.value.places
  let found :=
    steps (step.value.scaled all) (last.value.scaled all) countLimit (first.value.scaled all)
  let signed := fun (i : Nat) (n : Int) => n < 0 || (i = 0 && first.negative)
  match format, first.places, step.places, last.places with
  | none, some p, some q, some r =>
    let places : Nat := max p q
    let scale := Nat.pow 10 (all - places)
    let numerals := found.mapIdx fun i n => placedText places (signed i n) (n.natAbs / scale)
    if even then
      let mark : Nat → Int := fun r => if places = 0 then 0 else if r = 0 then 1 else 0
      let width := max (first.width + (places - p) + mark p)
        (last.width + ((places : Int) - r) + mark r - (if places = 0 ∧ r ≠ 0 then 1 else 0))
      numerals.map (widened width.toNat)
    else numerals
  | format, _, _, _ =>
    found.mapIdx fun i n => (format.getD .shortest).apply all (signed i n) n.natAbs

/-- Whether a word is a negative number, and so no option. -/
def isNegativeNumber (word : ByteText) : Bool :=
  match word.toList with
  | '-' :: c :: _ => Text.isDecimal c || c = '.'
  | _ => false

/-- Words with a mark in front of the first operand, which may be a negative number. -/
def withOperandMark : List ByteText → List ByteText
  | [] => []
  | word :: words =>
    if word.toList.head? ≠ some '-' ∨ isNegativeNumber word then "--" :: word :: words
    else if word = "--" then word :: words
    else if ["-s", "-f", "-ws", "-wf", "--separator", "--format"].contains word then
      match words with
      | value :: words => word :: value :: withOperandMark words
      | [] => [word]
    else word :: withOperandMark words

/-- The first number, the step and the last number of some words, which are looked at from the
left. -/
def countOperands (words : List ByteText) :
    Except ByteText (CountOperand × CountOperand × CountOperand) := do
  match words with
  | [first, step, last] => do
    let first ← CountOperand.ofWord first
    let found ← CountOperand.ofWord step
    if found.value.value = 0 then throw ("invalid Zero increment value: " ++ quoted step)
    let last ← CountOperand.ofWord last
    return (first, found, last)
  | [first, last] => do
    let first ← CountOperand.ofWord first
    let last ← CountOperand.ofWord last
    return (first, .whole 1, last)
  | words => do
    let last ← CountOperand.ofWord (words.head?.getD "")
    return (.whole 1, .whole 1, last)

/-- Count from one number to another. -/
def seqProgram (i : Invocation) : Process :=
  let rules : OptionRules :=
    { name := "seq", flags := ['w'], valued := ['s', 'f'], mixes := false
      long := [("equal-width", 'w'), ("separator", 's'), ("format", 'f')] }
  rules.run (withOperandMark i.arguments) fun o =>
    if o.operands.isEmpty then hinted "seq" 1 "missing operand"
    else
      match o.operands[3]? with
      | some word => hinted "seq" 1 ("extra operand " ++ quoted word)
      | none =>
        match (o.value? 'f').mapM CountFormat.ofText with
        | .error message => .failing 1 ("seq: " ++ message)
        | .ok format =>
          if format.isSome ∧ o.has 'w' then
            hinted "seq" 1
              "format string may not be specified when printing equal width strings"
          else
            match countOperands o.operands with
            | .error message => hinted "seq" 1 message
            | .ok (first, step, last) =>
              let texts := countTexts format (o.has 'w') first step last
              if texts.isEmpty then .silent 0
              else
                let separator := (o.value? 's').getD "\n"
                .saying (Text.joined separator (texts.map String.ofList) ++ "\n")

/-! ## Expressions of words -/

/-- The value of an expression. -/
inductive ExpressionValue where
  | integer (n : Int)
  | text (s : ByteText)
deriving DecidableEq, Repr

namespace ExpressionValue

/-- The integer of a word of digits. -/
def integer? (s : ByteText) : Option Int :=
  match s.toList with
  | '-' :: digits =>
    if digits.isEmpty || !digits.all Text.isDecimal then none
    else some (-(Text.decimalValue digits : Int))
  | digits =>
    if digits.isEmpty || !digits.all Text.isDecimal then none
    else some (Text.decimalValue digits : Int)

/-- A value as a number, if it is one. -/
def number? : ExpressionValue → Option Int
  | integer n => some n
  | text s => integer? s

/-- A value as a text. -/
def shown : ExpressionValue → ByteText
  | integer n => toString n
  | text s => s

/-- Whether a value counts as true: it is neither empty nor zero. -/
def isTrue (v : ExpressionValue) : Bool :=
  v.shown ≠ "" && v.number? ≠ some 0

end ExpressionValue

/-- Why an expression has no value. -/
inductive ExpressionFault where
  | missingAfter (word : ByteText)
  | unexpected (word : ByteText)
  | unexpectedParenthesis
  | missingParenthesis (after : ByteText)
  | noParenthesis (found : ByteText)
  | notInteger
  | divisionByZero
deriving DecidableEq, Repr

/-- The message of a fault in an expression. -/
def ExpressionFault.text : ExpressionFault → ByteText
  | missingAfter word => "syntax error: missing argument after " ++ quoted word
  | unexpected word => "syntax error: unexpected argument " ++ quoted word
  | unexpectedParenthesis => "syntax error: unexpected ')'"
  | missingParenthesis after => "syntax error: expecting ')' after " ++ quoted after
  | noParenthesis found => "syntax error: expecting ')' instead of " ++ quoted found
  | notInteger => "non-integer argument"
  | divisionByZero => "division by zero"

namespace WordExpression

/-- A value with the words left. -/
abbrev Result := Except ExpressionFault (ExpressionValue × List ByteText)

/-- The operators of each level, the loosest binding first. -/
def levels : List (List ByteText) :=
  [["|"], ["&"], ["<", "<=", "=", "==", "!=", ">=", ">"], ["+", "-"], ["*", "/", "%"], [":"]]

/-- The first group of a match at the start of a text, or how long the match is. -/
def matchValue (s pattern : ByteText) : ExpressionValue :=
  let r := Regex.sequence .start (.ofText false pattern.toList)
  let grouped := Regex.signs false pattern.length pattern.toList |>.contains .opening
  match Regex.matchAt? false (Regex.fuelFor r s.length) r { rest := s.toList } some with
  | some p =>
    if grouped then .text (String.ofList ((p.groups.lookup 1).getD []))
    else .integer (s.length - p.rest.length)
  | none => if grouped then .text "" else .integer 0

/-- A comparison of numbers, or of texts if one of them is no number. -/
def compareValues (operator : ByteText) (a b : ExpressionValue) : ExpressionValue :=
  let found := match a.number?, b.number? with
    | some m, some n => compare m n
    | _, _ => if a.shown < b.shown then .lt else if b.shown < a.shown then .gt else .eq
  let holds : Bool := match operator with
    | "<" => found = .lt
    | "<=" => found ≠ .gt
    | "!=" => found ≠ .eq
    | ">=" => found ≠ .lt
    | ">" => found = .gt
    | _ => found = .eq
  .integer (if holds then 1 else 0)

/-- The value of an operator between two values. -/
def apply (operator : ByteText) (a b : ExpressionValue) : Except ExpressionFault ExpressionValue :=
  match operator with
  | "|" => .ok (if a.isTrue then a else if b.isTrue then b else .integer 0)
  | "&" => .ok (if a.isTrue ∧ b.isTrue then a else .integer 0)
  | ":" => .ok (matchValue a.shown b.shown)
  | operator =>
    if ["+", "-", "*", "/", "%"].contains operator then
      match a.number?, b.number? with
      | some m, some n =>
        if operator = "+" then .ok (.integer (m + n))
        else if operator = "-" then .ok (.integer (m - n))
        else if operator = "*" then .ok (.integer (m * n))
        else if n = 0 then .error .divisionByZero
        else if operator = "/" then .ok (.integer (m.tdiv n))
        else .ok (.integer (m.tmod n))
      | _, _ => .error .notInteger
    else .ok (compareValues operator a b)

/-- What is read: the operators from a level on, more operands of a level, or an operand. -/
inductive Rule where
  | level (n : Nat)
  | more (n : Nat) (left : ExpressionValue)
  | operand
deriving DecidableEq, Repr

/-- The first position of a character of a set in a text, from one on, or zero. -/
def indexOf (s set : ByteText) : Nat :=
  let before := s.toList.takeWhile fun c => !set.toList.contains c
  if before.length < s.length then before.length + 1 else 0

/-- So many characters of a text from a position on. -/
def substring (s : ByteText) (position length : ExpressionValue) : ByteText :=
  match position.number?, length.number? with
  | some p, some n =>
    if p ≤ 0 ∨ n ≤ 0 then ""
    else String.ofList ((s.toList.drop (p.toNat - 1)).take n.toNat)
  | _, _ => ""

/-- Whether the operand on the right cannot change a value. -/
def settles (operator : ByteText) (left : ExpressionValue) : Bool :=
  (operator = "|" && left.isTrue) || (operator = "&" && !left.isTrue)

/-- The value at the start of some words; the word before them is given.  Nothing is worked out
where it cannot matter.  Every level of a word is one turn. -/
def read : (budget : Nat) → (matters : Bool) → Rule → (before : ByteText) → List ByteText → Result
  | 0, _, _, before, _ => .error (.missingAfter before)
  | budget + 1, matters, .level n, before, words =>
    if levels.length ≤ n then read budget matters .operand before words
    else do
      let (a, rest) ← read budget matters (.level (n + 1)) before words
      read budget matters (.more n a) before rest
  | budget + 1, matters, .more n left, before, words =>
    match words with
    | operator :: rest =>
      if (levels[n]?.getD []).contains operator then do
        let inner := matters && !settles operator left
        let (b, rest) ← read budget inner (.level (n + 1)) operator rest
        let v ← if matters then apply operator left b else pure left
        read budget matters (.more n v) before rest
      else .ok (left, words)
    | [] => .ok (left, [])
  | budget + 1, matters, .operand, before, words =>
    match words with
    | [] => .error (.missingAfter before)
    | "(" :: rest => do
      let (v, rest) ← read budget matters (.level 0) "(" rest
      match rest with
      | ")" :: rest => return (v, rest)
      | [] => .error (.missingParenthesis (words.getLast?.getD ""))
      | word :: _ => .error (.noParenthesis word)
    | ")" :: _ => .error .unexpectedParenthesis
    | "+" :: word :: rest => .ok (.text word, rest)
    | ["+"] => .error (.missingAfter "+")
    | "length" :: rest => do
      let (v, rest) ← read budget matters .operand "length" rest
      return (.integer (ByteText.toText v.shown).length, rest)
    | "match" :: rest => do
      let (s, rest) ← read budget matters .operand "match" rest
      let (pattern, rest) ← read budget matters .operand s.shown rest
      return (matchValue s.shown pattern.shown, rest)
    | "index" :: rest => do
      let (s, rest) ← read budget matters .operand "index" rest
      let (set, rest) ← read budget matters .operand s.shown rest
      return (.integer (indexOf s.shown set.shown), rest)
    | "substr" :: rest => do
      let (s, rest) ← read budget matters .operand "substr" rest
      let (position, rest) ← read budget matters .operand s.shown rest
      let (length, rest) ← read budget matters .operand position.shown rest
      return (.text (substring s.shown position length), rest)
    | word :: rest => .ok (.text word, rest)

end WordExpression

/-- Show the value of an expression; the status tells whether it is true. -/
def exprProgram (i : Invocation) : Process :=
  let words := if i.arguments.head? = some "--" then i.arguments.tail else i.arguments
  if words.isEmpty then hinted "expr" 2 "missing operand"
  else
    match WordExpression.read (8 * words.length + 8) true (.level 0) "expr" words with
    | .error fault => .failing 2 ("expr: " ++ fault.text)
    | .ok (v, []) =>
      { ending := .exited (if v.isTrue then 0 else 1), stdout := v.shown ++ "\n" }
    | .ok (_, word :: _) => .failing 2 ("expr: " ++ (ExpressionFault.unexpected word).text)

end PhasedInduction.Host
