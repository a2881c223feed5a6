import PhasedInduction.Toml.Numbers
import PhasedInduction.Toml.Strings
import PhasedInduction.Toml.Tables

/-!
# Reading TOML documents

A reader for version 1.0 of the format.  A text is read statement by statement, and
the statements are then built into tables.

Nested values are limited in depth, and dotted keys in length.  The readers carry a
budget; they take a character of the text with every step, so the length of the text
is budget enough.
-/

namespace PhasedInduction.Toml

/-- Values nest, and dotted keys have parts, fewer times than this. -/
def nestingLimit : Nat := 80

/-! ## Keys -/

/-- Whether a character may stand in a key without quotes. -/
def isBareKey (c : Char) : Bool :=
  ('a' ≤ c && c ≤ 'z') || ('A' ≤ c && c ≤ 'Z') || ('0' ≤ c && c ≤ '9') || c = '_' || c = '-'

/-- One part of a key: bare, or a string on one line. -/
def keyPart? (s : List Char) : Option (String × List Char) :=
  match s with
  | [] => none
  | c :: rest =>
    if c = '"' then
      (basic? (rest.length + 1) rest).map fun (name, rest) => (String.ofList name, rest)
    else if c = '\'' then
      (literal? rest).map fun (name, rest) => (String.ofList name, rest)
    else
      match s.takeWhile isBareKey with
      | [] => none
      | name => some (String.ofList name, s.dropWhile isBareKey)

/-- The parts of a dotted key, with spaces around each. -/
def keyParts? : (budget : Nat) → List Char → Option (List String × List Char)
  | 0, _ => none
  | budget + 1, s =>
    match keyPart? (skipSpaces s) with
    | none => none
    | some (name, rest) =>
      match skipSpaces rest with
      | '.' :: rest => (keyParts? budget rest).map fun (names, rest) => (name :: names, rest)
      | rest => some ([name], rest)

/-- A key of limited length: the path of its parts, the last of them apart. -/
def key? (s : List Char) : Option (List String × String × List Char) :=
  match keyParts? (s.length + 1) s with
  | some (names, rest) =>
    if names.length < nestingLimit then
      names.getLast?.map fun key => (names.dropLast, key, rest)
    else none
  | none => none

/-! ## Values -/

/-- The text without spaces, line ends and comments at its start.  A comment has to end
with its line. -/
def skipTrivia : (budget : Nat) → List Char → List Char
  | 0, s => s
  | budget + 1, s =>
    match newline? s with
    | some rest => skipTrivia budget rest
    | none =>
      match s with
      | [] => []
      | c :: rest =>
        if isSpace c then skipTrivia budget rest
        else if c = '#' then
          match newline? (rest.dropWhile isPlain) with
          | some rest => skipTrivia budget rest
          | none => s
        else s

/-- The text after a word that it has to start with. -/
def afterWord? (word s : List Char) : Option (List Char) :=
  if word.isPrefixOf s then some (s.drop word.length) else none

mutual

/-- A value at the start of a text, inside {lit}`depth` others. -/
def value? : (budget depth : Nat) → List Char → Option (Item × List Char)
  | 0, _, _ => none
  | _ + 1, _, [] => none
  | budget + 1, depth, c :: rest =>
    if c = '"' ∨ c = '\'' then
      (string? c rest).map fun (content, rest) => (.string (String.ofList content), rest)
    else if c = '[' then
      if depth + 1 < nestingLimit then
        (items? budget (depth + 1) rest).map fun (items, rest) => (.array items, rest)
      else none
    else if c = '\x7b' then
      if depth + 1 < nestingLimit then
        match skipSpaces rest with
        | '\x7d' :: rest => some (.table .inline [], rest)
        | rest =>
          match assignments? budget (depth + 1) rest with
          | some (assignments, rest) => (buildInline assignments).map (·, rest)
          | none => none
      else none
    else if c = 't' then (afterWord? ['r', 'u', 'e'] rest).map (.boolean true, ·)
    else if c = 'f' then (afterWord? ['a', 'l', 's', 'e'] rest).map (.boolean false, ·)
    else if c = 'i' ∨ c = 'n' then specialFloat? (c :: rest)
    else if c = '+' ∨ c = '-' ∨ Text.isDecimal c then number? (c :: rest)
    else none

/-- The items of an array up to its closing bracket; a comma may stand before it. -/
def items? : (budget depth : Nat) → List Char → Option (List Item × List Char)
  | 0, _, _ => none
  | budget + 1, depth, s =>
    match skipTrivia (s.length + 1) s with
    | ']' :: rest => some ([], rest)
    | s =>
      match value? budget depth s with
      | none => none
      | some (item, rest) =>
        match skipTrivia (rest.length + 1) rest with
        | ',' :: rest =>
          (items? budget depth rest).map fun (items, rest) => (item :: items, rest)
        | ']' :: rest => some ([item], rest)
        | _ => none

/-- The assignments of an inline table that has one, up to its closing brace. -/
def assignments? : (budget depth : Nat) → List Char →
    Option (List (List String × String × Item) × List Char)
  | 0, _, _ => none
  | budget + 1, depth, s =>
    match key? s with
    | some (path, key, '=' :: rest) =>
      match value? budget depth (skipSpaces rest) with
      | none => none
      | some (item, rest) =>
        match skipSpaces rest with
        | ',' :: rest =>
          (assignments? budget depth rest).map fun (assignments, rest) =>
            ((path, key, item) :: assignments, rest)
        | '\x7d' :: rest => some ([(path, key, item)], rest)
        | _ => none
    | _ => none

end

/-! ## Statements -/

/-- The text after the end of a line, which may have a comment. -/
def lineEnd? (s : List Char) : Option (List Char) :=
  let s := match skipSpaces s with
    | '#' :: rest => rest.dropWhile isPlain
    | s => s
  match s with
  | [] => some []
  | s => newline? s

/-- A header that stands between brackets, with what has to close it. -/
def header? (closing : List Char) (make : List String → Statement) (s : List Char) :
    Option (Statement × List Char) :=
  match key? s with
  | some (path, key, rest) =>
    match (afterWord? closing rest).bind lineEnd? with
    | some rest => some (make (path ++ [key]), rest)
    | none => none
  | none => none

/-- A statement with the end of its line. -/
def statement? (s : List Char) : Option (Statement × List Char) :=
  match s with
  | '[' :: '[' :: rest => header? [']', ']'] .element rest
  | '[' :: rest => header? [']'] .header rest
  | s =>
    match key? s with
    | some (path, key, '=' :: rest) =>
      match value? (rest.length + 1) 0 (skipSpaces rest) with
      | some (item, rest) => (lineEnd? rest).map (.assign path key item, ·)
      | none => none
    | _ => none

/-- All statements of a text. -/
def statements? : (budget : Nat) → List Char → Option (List Statement)
  | 0, _ => none
  | budget + 1, s =>
    let s := skipSpaces s
    match s with
    | [] => some []
    | '#' :: _ => (lineEnd? s).bind (statements? budget)
    | s =>
      match newline? s with
      | some rest => statements? budget rest
      | none =>
        match statement? s with
        | some (statement, rest) => (statements? budget rest).map (statement :: ·)
        | none => none

/-- The text without a byte order mark at its start. -/
def skipMark : List Char → List Char
  | c :: rest => if c = '\uFEFF' then rest else c :: rest
  | [] => []

/-- The root table of a document. -/
def parse? (text : String) : Option Entries :=
  let s := skipMark text.toList
  (statements? (s.length + 1) s).bind build

end PhasedInduction.Toml
