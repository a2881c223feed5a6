import PhasedInduction.Text.Numeral

/-!
# TOML strings

The four forms of a string: basic and literal, each on one line or on several.  A
basic form has escapes, a literal form has none.  Every reader takes the text after
the opening quotes and gives the content with what is left after the closing ones.

The readers carry a budget; they take a character of the text with every step, so
the length of the text is budget enough.
-/

namespace PhasedInduction.Toml

/-- Whether a character may stand in a comment, or in a string if it is not special
there: a tab, and everything but control characters. -/
def isPlain (c : Char) : Bool :=
  c = '\t' || (0x20 ≤ c.toNat && c.toNat ≠ 0x7F)

/-- Whether a character is a space or a tab. -/
def isSpace (c : Char) : Bool :=
  c = ' ' || c = '\t'

/-- The text without spaces and tabs at its start. -/
def skipSpaces (s : List Char) : List Char :=
  s.dropWhile isSpace

/-- The text after a line end at its start. -/
def newline? : List Char → Option (List Char)
  | '\n' :: rest => some rest
  | '\r' :: '\n' :: rest => some rest
  | _ => none

/-- The text without spaces, tabs and line ends at its start. -/
def skipLines : List Char → List Char
  | ' ' :: rest => skipLines rest
  | '\t' :: rest => skipLines rest
  | '\n' :: rest => skipLines rest
  | '\r' :: '\n' :: rest => skipLines rest
  | s => s

/-! ## Escapes -/

/-- The character of a code point, which has to be a scalar value. -/
def scalar? (n : Nat) : Option Char :=
  if n.isValidChar then some (Char.ofNat n) else none

/-- The character of as many hexadecimal digits as {lit}`width` says. -/
def hexEscape? (width : Nat) (s : List Char) : Option (Char × List Char) :=
  if s.length < width then none
  else
    match (Text.hexNumber? (s.take width)).bind scalar? with
    | some c => some (c, s.drop width)
    | none => none

/-- The character of an escape, after its backslash. -/
def escape? : List Char → Option (Char × List Char)
  | 'b' :: rest => some ('\x08', rest)
  | 't' :: rest => some ('\t', rest)
  | 'n' :: rest => some ('\n', rest)
  | 'f' :: rest => some ('\x0c', rest)
  | 'r' :: rest => some ('\r', rest)
  | '"' :: rest => some ('"', rest)
  | '\\' :: rest => some ('\\', rest)
  | 'u' :: rest => hexEscape? 4 rest
  | 'U' :: rest => hexEscape? 8 rest
  | _ => none

/-- The text after a backslash that folds lines: the rest of its line has to be empty,
and the space up to the next content is dropped. -/
def foldLines? (s : List Char) : Option (List Char) :=
  (newline? (skipSpaces s)).map skipLines

/-! ## Strings on one line -/

/-- Put a character in front of what a reader gives. -/
def consContent (c : Char) : Option (List Char × List Char) → Option (List Char × List Char)
  | some (content, rest) => some (c :: content, rest)
  | none => none

/-- The content of a basic string. -/
def basic? : (budget : Nat) → List Char → Option (List Char × List Char)
  | 0, _ => none
  | _ + 1, [] => none
  | budget + 1, c :: rest =>
    if c = '"' then some ([], rest)
    else if c = '\\' then
      match escape? rest with
      | some (e, rest) => consContent e (basic? budget rest)
      | none => none
    else if isPlain c then consContent c (basic? budget rest)
    else none

/-- The content of a literal string. -/
def literal? : List Char → Option (List Char × List Char)
  | [] => none
  | c :: rest =>
    if c = '\'' then some ([], rest)
    else if isPlain c then consContent c (literal? rest)
    else none

/-! ## Strings on several lines -/

/-- The quotes that close a string of several lines: three of them, after up to two
that belong to its content. -/
def closing? (quote : Char) : List Char → Option (List Char × List Char)
  | a :: b :: c :: rest =>
    if a = quote ∧ b = quote ∧ c = quote then
      match rest with
      | d :: e :: more =>
        if d = quote then
          if e = quote then some ([quote, quote], more) else some ([quote], e :: more)
        else some ([], d :: e :: more)
      | [d] => if d = quote then some ([quote], []) else some ([], [d])
      | [] => some ([], [])
    else none
  | _ => none

/-- The content of a basic string of several lines. -/
def multilineBasic? : (budget : Nat) → List Char → Option (List Char × List Char)
  | 0, _ => none
  | budget + 1, s =>
    match closing? '"' s with
    | some (content, rest) => some (content, rest)
    | none =>
      match newline? s with
      | some rest => consContent '\n' (multilineBasic? budget rest)
      | none =>
        match s with
        | [] => none
        | c :: rest =>
          if c = '\\' then
            match foldLines? rest with
            | some rest => multilineBasic? budget rest
            | none =>
              match escape? rest with
              | some (e, rest) => consContent e (multilineBasic? budget rest)
              | none => none
          else if isPlain c then consContent c (multilineBasic? budget rest)
          else none

/-- The content of a literal string of several lines. -/
def multilineLiteral? : (budget : Nat) → List Char → Option (List Char × List Char)
  | 0, _ => none
  | budget + 1, s =>
    match closing? '\'' s with
    | some (content, rest) => some (content, rest)
    | none =>
      match newline? s with
      | some rest => consContent '\n' (multilineLiteral? budget rest)
      | none =>
        match s with
        | [] => none
        | c :: rest =>
          if isPlain c then consContent c (multilineLiteral? budget rest) else none

/-- The text without a line end at its start, if there is one. -/
def skipNewline (s : List Char) : List Char :=
  (newline? s).getD s

/-- A string of any form, after the text of its opening quote. -/
def string? (quote : Char) (s : List Char) : Option (List Char × List Char) :=
  match s with
  | a :: b :: rest =>
    if a = quote ∧ b = quote then
      let rest := skipNewline rest
      if quote = '"' then multilineBasic? (rest.length + 1) rest
      else multilineLiteral? (rest.length + 1) rest
    else if quote = '"' then basic? (s.length + 1) s
    else literal? s
  | _ => if quote = '"' then basic? (s.length + 1) s else literal? s

end PhasedInduction.Toml
