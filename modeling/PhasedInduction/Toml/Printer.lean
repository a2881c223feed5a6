import PhasedInduction.Text.Numeral

/-!
# Writing TOML documents

A document of sections, each with settings that are numbers, texts or lists of texts.
A text is written in the first of four string forms that can hold it without more
escapes than needed; a list with more than one text has a line for each.

The format has no integer above the largest signed one of 64 bits, so a document with a
larger number is not written at all.

Main results:

- Theorem {lit}`numberText?_eq_none_iff`: the numbers that cannot be written.
-/

namespace PhasedInduction.Toml

/-! ## What decides the form of a string -/

/-- Whether a character is a control character that only an escape can write. -/
def isCode (c : Char) : Bool :=
  (c.toNat < 0x20 && c != '\t' && c != '\n') || c.toNat = 0x7F

/-- The length of the longest run of a character, with the run that is going on. -/
def longestRunFrom (c : Char) (current longest : Nat) : List Char → Nat
  | [] => max current longest
  | d :: rest =>
    if d = c then longestRunFrom c (current + 1) longest rest
    else longestRunFrom c 0 (max current longest) rest

/-- The length of the longest run of a character. -/
def longestRun (c : Char) (s : List Char) : Nat :=
  longestRunFrom c 0 0 s

/-- The forms of a string. -/
inductive StringForm where
  | basic
  | literal
  | multilineBasic
  | multilineLiteral
deriving DecidableEq, Repr

/-- The form in which a text is written: the first one of the list that fits. -/
def StringForm.of (s : List Char) : StringForm :=
  let codes := s.any isCode
  let escapes := s.contains '\\'
  let lines := s.contains '\n'
  let doubles := longestRun '"' s
  let singles := longestRun '\'' s
  if !codes && !escapes && doubles = 0 && !lines then .basic
  else if !codes && singles = 0 && !lines then .literal
  else if !codes && !escapes && doubles ≤ 2 then .multilineBasic
  else if !codes && singles ≤ 2 then .multilineLiteral
  else if lines then .multilineBasic
  else .basic

/-! ## Escapes -/

/-- A character of a basic string on one line. -/
def escaped (c : Char) : List Char :=
  if c = '"' then ['\\', '"']
  else if c = '\\' then ['\\', '\\']
  else if c = '\x08' then ['\\', 'b']
  else if c = '\t' then ['\\', 't']
  else if c = '\n' then ['\\', 'n']
  else if c = '\x0c' then ['\\', 'f']
  else if c = '\r' then ['\\', 'r']
  else if c.toNat < 0x20 ∨ c.toNat = 0x7F then
    ['\\', 'u'] ++ (Text.hexNumeral 4 c.toNat).map Char.toUpper
  else [c]

/-- The content of a basic string of several lines, after a number of quotes in a row.
Only the third quote in a row is escaped. -/
def multilineContent : (quotes : Nat) → List Char → List Char
  | _, [] => []
  | quotes, c :: rest =>
    if c = '"' then
      if quotes = 2 then '\\' :: '"' :: multilineContent 0 rest
      else '"' :: multilineContent (quotes + 1) rest
    else if c = '\n' then '\n' :: multilineContent 0 rest
    else escaped c ++ multilineContent 0 rest

/-- The line end after the opening quotes of a text with line ends. -/
def openingLine (s : List Char) : List Char :=
  if s.contains '\n' then ['\n'] else []

/-- A text in a form. -/
def inForm (s : List Char) : StringForm → List Char
  | .basic => '"' :: s.flatMap escaped ++ ['"']
  | .literal => '\'' :: s ++ ['\'']
  | .multilineBasic =>
    ['"', '"', '"'] ++ openingLine s ++ multilineContent 0 s ++ ['"', '"', '"']
  | .multilineLiteral => ['\'', '\'', '\''] ++ openingLine s ++ s ++ ['\'', '\'', '\'']

/-- A text as a string. -/
def stringText (s : List Char) : List Char :=
  inForm s (.of s)

/-! ## Settings and sections -/

/-- The value of a setting. -/
inductive Setting where
  | number (n : Nat)
  | text (s : String)
  | texts (l : List String)
deriving DecidableEq, Repr

/-- The largest integer of the format. -/
def largestInteger : Nat := 9223372036854775807

/-- A number, if the format has it. -/
def numberText? (n : Nat) : Option (List Char) :=
  if n ≤ largestInteger then some (Text.decimal n) else none

/-- The numbers that cannot be written are those above the largest integer. -/
theorem numberText?_eq_none_iff (n : Nat) : numberText? n = none ↔ largestInteger < n := by
  simp [numberText?]

/-- A list of texts: on one line up to one text, and otherwise a line for each. -/
def listText : List String → List Char
  | [] => ['[', ']']
  | [s] => '[' :: stringText s.toList ++ [']']
  | texts =>
    ['[', '\n'] ++ texts.flatMap (fun s =>
      [' ', ' ', ' ', ' '] ++ stringText s.toList ++ [',', '\n']) ++ [']']

/-- The value of a setting as text. -/
def Setting.text? : Setting → Option (List Char)
  | .number n => numberText? n
  | .text s => some (stringText s.toList)
  | .texts l => some (listText l)

/-- A named part of a document with its named settings. -/
structure Section where
  name : String
  settings : List (String × Setting)
deriving DecidableEq, Repr

/-- The line of a setting. -/
def settingLine? (setting : String × Setting) : Option (List Char) :=
  setting.2.text?.map fun value => setting.1.toList ++ [' ', '=', ' '] ++ value ++ ['\n']

/-- The header and the settings of a section. -/
def Section.text? (s : Section) : Option (List Char) :=
  (s.settings.mapM settingLine?).map fun lines =>
    '[' :: s.name.toList ++ [']', '\n'] ++ lines.flatten

/-- Sections with an empty line between them. -/
def sectionsText? : List Section → Option (List Char)
  | [] => some []
  | [s] => s.text?
  | s :: rest =>
    match s.text?, sectionsText? rest with
    | some text, some more => some (text ++ '\n' :: more)
    | _, _ => none

/-- A document, if the format has all of its numbers. -/
def print? (sections : List Section) : Option String :=
  (sectionsText? sections).map String.ofList

end PhasedInduction.Toml
