import PhasedInduction.Json.Basic
import PhasedInduction.Text.Numeral

/-!
# Reading JSON

A reader for the standard grammar.  It works on the characters of a text; each
function takes what is left of the text and gives a value with what is left after
it.  Of two members with one name the later one counts.

The readers for nested values carry a budget.  Every nested value takes a
character of the text, so the length of the text is budget enough.
-/

namespace PhasedInduction.Json

/-- The text without the blank characters of the grammar at its start. -/
def skipBlanks (s : List Char) : List Char :=
  s.dropWhile fun c => c = ' ' || c = '\t' || c = '\n' || c = '\r'

/-- The text after a word that it has to start with. -/
def after? (word s : List Char) : Option (List Char) :=
  if word.isPrefixOf s then some (s.drop word.length) else none

/-! ## Strings -/

/-- The number of four hexadecimal digits at the start of a text. -/
def fourHex? : List Char → Option (Nat × List Char)
  | a :: b :: c :: d :: rest => (Text.hexNumber? [a, b, c, d]).map (·, rest)
  | _ => none

/-- The character of an escape that starts with {lit}`u`; a pair of surrogates is
one character and a single surrogate is none. -/
def unicodeEscape? (s : List Char) : Option (Char × List Char) :=
  match fourHex? s with
  | none => none
  | some (high, rest) =>
    if 0xDC00 ≤ high ∧ high ≤ 0xDFFF then none
    else if 0xD800 ≤ high ∧ high ≤ 0xDBFF then
      match rest with
      | '\\' :: 'u' :: more =>
        match fourHex? more with
        | some (low, rest) =>
          if 0xDC00 ≤ low ∧ low ≤ 0xDFFF then
            some (Char.ofNat (0x10000 + (high - 0xD800) * 0x400 + (low - 0xDC00)), rest)
          else none
        | none => none
      | _ => none
    else some (Char.ofNat high, rest)

/-- The character of an escape, after its backslash. -/
def escape? : List Char → Option (Char × List Char)
  | '"' :: rest => some ('"', rest)
  | '\\' :: rest => some ('\\', rest)
  | '/' :: rest => some ('/', rest)
  | 'b' :: rest => some ('\x08', rest)
  | 'f' :: rest => some ('\x0c', rest)
  | 'n' :: rest => some ('\n', rest)
  | 'r' :: rest => some ('\r', rest)
  | 't' :: rest => some ('\t', rest)
  | 'u' :: rest => unicodeEscape? rest
  | _ => none

/-- The characters of a string up to its closing quote. -/
def stringBody? : (budget : Nat) → List Char → Option (List Char × List Char)
  | 0, _ => none
  | _, [] => none
  | _ + 1, '"' :: rest => some ([], rest)
  | budget + 1, '\\' :: rest => do
    let (c, rest) ← escape? rest
    let (body, rest) ← stringBody? budget rest
    return (c :: body, rest)
  | budget + 1, c :: rest =>
    if c.toNat < 0x20 then none
    else do
      let (body, rest) ← stringBody? budget rest
      return (c :: body, rest)

/-- A string after its opening quote. -/
def stringAfterQuote? (s : List Char) : Option (String × List Char) :=
  (stringBody? (s.length + 1) s).map fun (body, rest) => (String.ofList body, rest)

/-! ## Numbers -/

/-- Whether a digit sequence may stand before the point: no leading zero. -/
def isWholePart : List Char → Bool
  | [] => false
  | ['0'] => true
  | c :: _ => c != '0'

/-- The fraction at the start of a text, empty if there is none. -/
def fraction? : List Char → Option (List Char × List Char)
  | '.' :: rest =>
    match rest.span Text.isDecimal with
    | ([], _) => none
    | (digits, rest) => some ('.' :: digits, rest)
  | s => some ([], s)

/-- The exponent at the start of a text, empty if there is none. -/
def exponent? (s : List Char) : Option (List Char × List Char) :=
  match s with
  | [] => some ([], [])
  | e :: rest =>
    if e = 'e' || e = 'E' then
      let (sign, rest) : List Char × List Char := match rest with
        | '+' :: rest => (['+'], rest)
        | '-' :: rest => (['-'], rest)
        | rest => ([], rest)
      match rest.span Text.isDecimal with
      | ([], _) => none
      | (digits, rest) => some (e :: sign ++ digits, rest)
    else some ([], s)

/-- A number at the start of a text. -/
def number? (s : List Char) : Option (Json × List Char) :=
  let (negative, unsigned) : Bool × List Char := match s with
    | '-' :: rest => (true, rest)
    | rest => (false, rest)
  let (whole, rest) := unsigned.span Text.isDecimal
  if isWholePart whole then do
    let (fraction, rest) ← fraction? rest
    let (exponent, rest) ← exponent? rest
    let sign : List Char := if negative then ['-'] else []
    if fraction.isEmpty && exponent.isEmpty then
      let size : Int := Int.ofNat (Text.decimalValue whole)
      if negative && size == 0 then return (decimal "-0", rest)
      else return (integer (if negative then -size else size), rest)
    else return (decimal (String.ofList (sign ++ whole ++ fraction ++ exponent)), rest)
  else none

/-! ## Values -/

/-- Put a member at the end of an object, in place of an earlier one of its name. -/
def setMember (members : Members) (name : String) (value : Json) : Members :=
  members.filter (fun member => member.1 != name) ++ [(name, value)]

mutual

/-- A value at the start of a text that has no blanks there. -/
def value? : (budget : Nat) → List Char → Option (Json × List Char)
  | 0, _ => none
  | budget + 1, s =>
    match s with
    | [] => none
    | '"' :: rest => (stringAfterQuote? rest).map fun (text, rest) => (string text, rest)
    | '[' :: rest =>
      match skipBlanks rest with
      | ']' :: rest => some (array [], rest)
      | rest => (items? budget [] rest).map fun (items, rest) => (array items, rest)
    | '\x7b' :: rest =>
      match skipBlanks rest with
      | '\x7d' :: rest => some (object [], rest)
      | rest => (members? budget [] rest).map fun (members, rest) => (object members, rest)
    | 't' :: rest => (after? ['r', 'u', 'e'] rest).map (bool true, ·)
    | 'f' :: rest => (after? ['a', 'l', 's', 'e'] rest).map (bool false, ·)
    | 'n' :: rest => (after? ['u', 'l', 'l'] rest).map (null, ·)
    | _ => number? s

/-- The items of an array that has one at the start of the text, up to its end. -/
def items? : (budget : Nat) → List Json → List Char → Option (List Json × List Char)
  | 0, _, _ => none
  | budget + 1, seen, s => do
    let (item, rest) ← value? budget s
    match skipBlanks rest with
    | ',' :: rest => items? budget (item :: seen) (skipBlanks rest)
    | ']' :: rest => return ((item :: seen).reverse, rest)
    | _ => none

/-- The members of an object that has one at the start of the text, up to its end. -/
def members? : (budget : Nat) → Members → List Char → Option (Members × List Char)
  | 0, _, _ => none
  | budget + 1, seen, s =>
    match s with
    | '"' :: rest => do
      let (name, rest) ← stringAfterQuote? rest
      match skipBlanks rest with
      | ':' :: rest => do
        let (value, rest) ← value? budget (skipBlanks rest)
        let seen := setMember seen name value
        match skipBlanks rest with
        | ',' :: rest => members? budget seen (skipBlanks rest)
        | '\x7d' :: rest => return (seen, rest)
        | _ => none
      | _ => none
    | _ => none

end

/-- The value of a text that holds one value and blanks around it. -/
def read? (text : String) : Option Json :=
  match value? (text.toList.length + 1) (skipBlanks text.toList) with
  | some (j, rest) => if (skipBlanks rest).isEmpty then some j else none
  | none => none

end PhasedInduction.Json
