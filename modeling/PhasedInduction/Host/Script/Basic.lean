import PhasedInduction.Host.ByteText

/-!
# Scripts

What the text of a script means to a shell: words made of pieces, and commands made of words
and of other commands.  Words hold commands too, those whose output they stand for.

Main results:

- Theorem {lit}`Piece.text?_chars`: characters without quotes are a plain text.
- Theorem {lit}`Piece.text?_eq_none_of_quoted`: a word with a quoted character is no plain text.
-/

namespace PhasedInduction.Host

/-- What is made of the value of a parameter.  Some uses depend on whether the parameter has a
value, and of those each has a form that takes an empty value for none. -/
inductive ParameterUse where
  | value
  | length
  /-- A word in place of a missing value. -/
  | default (orEmpty : Bool)
  /-- A word in place of a missing value, which becomes the value. -/
  | assign (orEmpty : Bool)
  /-- A message if there is no value. -/
  | demand (orEmpty : Bool)
  /-- A word in place of the value. -/
  | alternative (orEmpty : Bool)
  /-- The value without what a pattern fits at its start. -/
  | cutFront (longest : Bool)
  /-- The value without what a pattern fits at its end. -/
  | cutBack (longest : Bool)
  /-- What follows the name means nothing. -/
  | senseless
deriving DecidableEq, Repr

/-- How a redirection opens a file. -/
inductive Opening where
  | read
  | write
  | append
  | readWrite
deriving DecidableEq, Repr

/-- What a redirection makes of its word. -/
inductive RedirectionKind where
  /-- The word names a file. -/
  | file (how : Opening)
  /-- The word names another descriptor, or is a hyphen. -/
  | copy
  /-- The word is the text that is read. -/
  | document
deriving DecidableEq, Repr

/-- A redirection of a descriptor. -/
structure Redirection (W : Type) where
  descriptor : Nat
  kind : RedirectionKind
  word : W
deriving Repr

mutual

/-- A piece of a word. -/
inductive Piece where
  | char (c : Char) (quoted : Bool)
  /-- Quotes, which make a word even if there is nothing between them. -/
  | mark
  | parameter (name : ByteText) (quoted : Bool) (use : ParameterUse) (word : List Piece)
  /-- The output of a command. -/
  | output (body : ScriptCommand) (quoted : Bool)
  | arithmetic (expression : List Piece) (quoted : Bool)

/-- A command of a script. -/
inductive ScriptCommand where
  | nothing
  | simple (line : Nat) (assignments : List (ByteText × List Piece)) (words : List (List Piece))
      (redirections : List (Redirection (List Piece)))
  /-- Each of the commands reads what the one before it prints. -/
  | pipeline (parts : List ScriptCommand)
  | inverted (body : ScriptCommand)
  | both (first second : ScriptCommand)
  | either (first second : ScriptCommand)
  | sequence (first second : ScriptCommand)
  | background (body : ScriptCommand)
  /-- A command for a shell of its own. -/
  | inner (line : Nat) (body : ScriptCommand)
  | choice (test yes no : ScriptCommand)
  /-- A command repeated as long as a test succeeds, or as long as it fails. -/
  | loop (succeeds : Bool) (test body : ScriptCommand)
  /-- A command repeated for the words. -/
  | each (line : Nat) (name : ByteText) (words : List (List Piece)) (body : ScriptCommand)
  /-- The command of the first patterns that fit a word. -/
  | cases (line : Nat) (word : List Piece) (arms : List (List (List Piece) × ScriptCommand))
  | define (name : ByteText) (body : ScriptCommand)
  | redirected (line : Nat) (redirections : List (Redirection (List Piece)))
      (body : ScriptCommand)

end

/-- A word before its parameters are replaced. -/
abbrev Word := List Piece

namespace Piece

/-- The characters of a word, if none is quoted and nothing is to be replaced. -/
def text? : Word → Option (List Char)
  | [] => some []
  | .char c false :: rest => (text? rest).map (c :: ·)
  | _ => none

/-- A text as a word. -/
def chars (quoted : Bool) (s : List Char) : Word := s.map fun c => .char c quoted

/-- Characters without quotes are a plain text. -/
@[simp]
theorem text?_chars (s : List Char) : text? (chars false s) = some s := by
  induction s with
  | nil => rfl
  | cons c s ih =>
    simp only [chars, List.map_cons] at ih ⊢
    simp [text?, ih]

/-- A word with a quoted character is no plain text. -/
theorem text?_eq_none_of_quoted (c : Char) (before after : Word) :
    text? (before ++ .char c true :: after) = none := by
  induction before with
  | nil => simp [text?]
  | cons p before ih =>
    cases p with
    | char d quoted => cases quoted <;> simp [text?, ih]
    | _ => simp [text?]

end Piece

/-- Every parameter as a word of its own. -/
def allParameters : Word := [.parameter "@" true .value []]

end PhasedInduction.Host
