import PhasedInduction.Host.Arithmetic
import PhasedInduction.Host.Script.Basic

/-!
# Tokens of scripts

A script is read from its start, a token at a time, and what is left of it is the state of
the reader.  A word may hold whole commands, so reading words needs a way to read commands,
which is an argument here.

Main results:

- Theorem {lit}`ScriptReader.cutLines_suffix`: what follows the lines that are taken out of a
  text is the end of the text.
-/

namespace PhasedInduction.Host

/-- A token of a script. -/
inductive ScriptToken where
  | word (w : Word)
  | keyword (text : String)
  | operator (text : String)
  /-- The sign of a redirection behind the descriptor it is for. -/
  | redirection (descriptor : Option Nat) (sign : String)
  | newline
  | finish

namespace ScriptToken

/-- The keywords. -/
def keywords : List String :=
  ["!", "case", "do", "done", "elif", "else", "esac", "fi", "for", "if", "in", "then", "until",
    "while", "\x7b", "\x7d"]

/-- A word that is a keyword, as one. -/
def withKeywords : ScriptToken → ScriptToken
  | word w =>
    match Piece.text? w with
    | some text =>
      if keywords.contains (String.ofList text) then keyword (String.ofList text) else word w
    | none => word w
  | t => t

/-- How messages name a token. -/
def shown : ScriptToken → String
  | word _ => "word"
  | keyword text => "\"" ++ text ++ "\""
  | operator text => "\"" ++ text ++ "\""
  | redirection _ _ => "redirection"
  | newline => "newline"
  | finish => "end of file"

/-- Whether a token is this operator. -/
def isOperator (text : String) : ScriptToken → Bool
  | operator other => other = text
  | _ => false

/-- Whether a token is this keyword. -/
def isKeyword (text : String) : ScriptToken → Bool
  | keyword other => other = text
  | _ => false

/-- Whether a token ends a list of commands. -/
def endsList : ScriptToken → Bool
  | finish => true
  | operator text => text = ")" || text = ";;"
  | keyword text =>
    ["do", "done", "elif", "else", "esac", "fi", "then", "\x7d"].contains text
  | _ => false

end ScriptToken

/-- Why a script cannot be read. -/
inductive ScriptCause where
  | unterminatedQuote
  | missingBrace
  | missingParentheses
  | unterminatedBackquote
  | unexpected (token : String) (expecting : Option String)
  | badLoopVariable
  | badFunctionName
  | tooDeep
deriving DecidableEq, Repr

/-- The message of a cause. -/
def ScriptCause.message (cause : ScriptCause) : String :=
  "Syntax error: " ++
    match cause with
    | unterminatedQuote => "Unterminated quoted string"
    | missingBrace => "Missing '\x7d'"
    | missingParentheses => "Missing '))'"
    | unterminatedBackquote => "EOF in backquote substitution"
    | unexpected token none => token ++ " unexpected"
    | unexpected token (some other) => token ++ " unexpected (expecting " ++ other ++ ")"
    | badLoopVariable => "Bad for loop variable"
    | badFunctionName => "Bad function name"
    | tooDeep => "Nesting too deep"

/-- A cause with the number of its line. -/
structure ScriptFault where
  line : Nat
  cause : ScriptCause
deriving DecidableEq, Repr

/-- What is left of a script. -/
structure ScriptReader where
  rest : List Char
  /-- The number of the line that the rest begins in. -/
  line : Nat := 1
  /-- A token that was put back. -/
  ahead : Option ScriptToken := none
  /-- How many lines below this one are taken out. -/
  taken : Nat := 0

/-- Reading of a part of a script. -/
abbrev ScriptRead := StateT ScriptReader (Except ScriptFault)

/-- What the characters of a word stand in. -/
inductive WordContext where
  | bare
  | quoted
  /-- Within the braces of a parameter. -/
  | braced (quoted : Bool)
  /-- Within a text that is read by a command. -/
  | document
  /-- Within parentheses of an arithmetic expression. -/
  | arithmetic (depth : Nat)
deriving DecidableEq, Repr

/-- How the parts of a script are read that hold other parts. -/
structure ScriptRules where
  /-- A list of commands, which may be empty or not. -/
  list : (mayBeEmpty : Bool) → ScriptRead ScriptCommand
  word : WordContext → ScriptRead Word

namespace ScriptReader

/-! ## Characters -/

/-- Refuse the script. -/
def refuse {α : Type} (cause : ScriptCause) : ScriptRead α := do
  throw ⟨(← get).line, cause⟩

/-- A text without the backslashes before line ends at its start, and how many they are. -/
def spliced : List Char → List Char × Nat
  | '\\' :: '\n' :: s => ((spliced s).1, (spliced s).2 + 1)
  | s => (s, 0)

/-- The next character. -/
def peek : ScriptRead (Option Char) := do
  let r ← get
  let (rest, passed) := spliced r.rest
  set { r with rest, line := r.line + passed }
  return rest.head?

/-- Pass over a character. -/
def skip : ScriptRead Unit := modify fun r =>
  { r with
    rest := r.rest.tail
    line := if r.rest.head? = some '\n' then r.line + 1 else r.line }

/-- Take the next character as it is. -/
def takeRaw : ScriptRead (Option Char) := do
  let c := (← get).rest.head?
  skip
  return c

/-- Pass over the next character if it is this one. -/
def accept (c : Char) : ScriptRead Bool := do
  if (← peek) = some c then
    skip
    return true
  return false

/-- Take the characters of a kind at the start.  Every turn takes a character. -/
def takeWhile (p : Char → Bool) : (budget : Nat) → ScriptRead (List Char)
  | 0 => return []
  | budget + 1 => do
    match ← peek with
    | some c =>
      if p c then
        skip
        return c :: (← takeWhile p budget)
      return []
    | none => return []

/-- How much is left of the script. -/
def size : ScriptRead Nat := return (← get).rest.length + 1

/-! ## Words -/

/-- Whether a character ends a word. -/
def endsWord (c : Char) : Bool :=
  [' ', '\t', '\n', ';', '&', '|', '>', '<', '(', ')'].contains c

/-- Whether a character names a parameter by itself. -/
def isSpecial (c : Char) : Bool := ['@', '*', '#', '?', '$', '!', '-'].contains c

/-- The characters up to a closing single quote. -/
def singleQuoted : ScriptRead (List Char) := do
  let r ← get
  let text := r.rest.takeWhile (· ≠ '\'')
  match r.rest.drop text.length with
  | [] => throw ⟨r.line + text.count '\n', .unterminatedQuote⟩
  | _ :: rest =>
    set { r with rest, line := r.line + text.count '\n' }
    return text

/-- The use of a parameter after its name, with the word that belongs to it. -/
def parameterUse (g : ScriptRules) (quoted : Bool) : ScriptRead (ParameterUse × Word) := do
  let named (orEmpty : Bool) : ScriptRead (ParameterUse × Word) := do
    let use ← match ← peek with
      | some '-' => skip; pure (ParameterUse.default orEmpty)
      | some '=' => skip; pure (.assign orEmpty)
      | some '?' => skip; pure (.demand orEmpty)
      | some '+' => skip; pure (.alternative orEmpty)
      | some '\x7d' => pure .value
      | _ => pure .senseless
    return (use, ← g.word (.braced quoted))
  match ← peek with
  | some ':' =>
    skip
    named true
  | some '#' =>
    skip
    let longest ← accept '#'
    return (.cutFront longest, ← g.word (.braced false))
  | some '%' =>
    skip
    let longest ← accept '%'
    return (.cutBack longest, ← g.word (.braced false))
  | _ => named false

/-- The name of a parameter, which is empty if there is none. -/
def parameterName (inBraces : Bool) : ScriptRead ByteText := do
  match ← peek with
  | some c =>
    if Arithmetic.beginsName c then return String.ofList (← takeWhile Arithmetic.inName (← size))
    else if Text.isDecimal c then
      let length ← size
      let most := if inBraces then length else 1
      return String.ofList (← takeWhile Text.isDecimal most)
    else if isSpecial c then
      skip
      return String.ofList [c]
    else return ""
  | none => return ""

/-- Whether a number sign within braces asks for a length: a name follows, or a sign that is
a parameter of its own and is followed by the closing brace. -/
def asksLength : List Char → Bool
  | c :: d :: _ => Arithmetic.inName c || (isSpecial c && d = '\x7d')
  | [c] => Arithmetic.inName c
  | [] => false

/-- The parameter between braces. -/
def bracedParameter (g : ScriptRules) (quoted : Bool) : ScriptRead Piece := do
  if (← peek) = some '#' then
    if asksLength (← get).rest.tail then
      skip
      let name ← parameterName true
      let rest ← g.word (.braced quoted)
      return .parameter name quoted .length rest
  let name ← parameterName true
  let (use, word) ← parameterUse g quoted
  return .parameter name quoted (if name = "" then .senseless else use) word

/-- Read commands from a text of their own. -/
def within {α : Type} (text : List Char) (read : ScriptRead α) : ScriptRead α := do
  let r ← get
  set { r with rest := text, ahead := none }
  let found ← read
  set r
  return found

/-- The text up to a closing backquote, without the backslashes that protect from it. -/
def backquoted (quoted : Bool) : (budget : Nat) → ScriptRead (List Char)
  | 0 => refuse .unterminatedBackquote
  | budget + 1 => do
    match ← peek with
    | none => refuse .unterminatedBackquote
    | some '\x60' =>
      skip
      return []
    | some '\\' =>
      skip
      match ← takeRaw with
      | none => refuse .unterminatedBackquote
      | some c =>
        let rest ← backquoted quoted budget
        return if ['\\', '\x60', '$'].contains c ∨ (quoted ∧ c = '"') then c :: rest
          else '\\' :: c :: rest
    | some c =>
      skip
      return c :: (← backquoted quoted budget)

/-- The piece after a dollar sign. -/
def afterDollar (g : ScriptRules) (quoted : Bool) : ScriptRead Piece := do
  match ← peek with
  | some '(' =>
    skip
    if ← accept '(' then return .arithmetic (← g.word (.arithmetic 0)) quoted
    let body ← g.list true
    match (← get).ahead with
    | some token =>
      if token.isOperator ")" then
        modify fun r => { r with ahead := none }
        return .output body quoted
      refuse (.unexpected token.shown (some "\")\""))
    | none => return .output body quoted
  | some '\x7b' =>
    skip
    bracedParameter g quoted
  | _ =>
    let name ← parameterName false
    if name = "" then return .char '$' quoted
    return .parameter name quoted .value []

/-- The piece after a backquote. -/
def afterBackquote (g : ScriptRules) (quoted : Bool) : ScriptRead Piece := do
  let text ← backquoted quoted (← size)
  return .output (← within text (g.list true)) quoted

/-- The characters that a backslash protects. -/
def isProtected (context : WordContext) (c : Char) : Bool :=
  match context with
  | .bare | .braced false => true
  | .quoted | .arithmetic _ => ['\\', '\x60', '$', '"'].contains c
  | .braced true => ['\\', '\x60', '$', '"', '\x7d'].contains c
  | .document => ['\\', '\x60', '$'].contains c

/-- Whether plain characters count as quoted. -/
def quotes : WordContext → Bool
  | .bare | .braced false => false
  | _ => true

/-- What a character does to the word it stands in. -/
inductive CharRole where
  /-- The word ends before the character. -/
  | ends
  /-- The word ends with the character. -/
  | closes
  | singleQuote
  | doubleQuote
  | plain
deriving DecidableEq, Repr

/-- What a character does in a context; backslashes, dollar signs and backquotes do the same in
all of them. -/
def role (context : WordContext) (c : Char) : CharRole :=
  match context with
  | .bare =>
    if endsWord c then .ends
    else if c = '\'' then .singleQuote else if c = '"' then .doubleQuote else .plain
  | .quoted => if c = '"' then .closes else .plain
  | .braced quoted =>
    if c = '\x7d' then .closes
    else if c = '\'' ∧ ¬quoted then .singleQuote
    else if c = '"' then .doubleQuote else .plain
  | .document | .arithmetic _ => .plain

/-- What is missing if a script ends within a context. -/
def unclosed? : WordContext → Option ScriptCause
  | .bare | .document => none
  | .quoted => some .unterminatedQuote
  | .braced _ => some .missingBrace
  | .arithmetic _ => some .missingParentheses

/-- The context after a parenthesis in it, unless the parenthesis closes it. -/
def afterParenthesis (context : WordContext) (c : Char) (next : Option Char) :
    Option WordContext :=
  match context with
  | .arithmetic depth =>
    if c = '(' then some (.arithmetic (depth + 1))
    else if c = ')' then
      if 0 < depth then some (.arithmetic (depth - 1))
      else if next = some ')' then none else some context
    else some context
  | context => some context

/-- The pieces of a word in a context.  Every turn takes a character. -/
def pieces (g : ScriptRules) : (budget : Nat) → WordContext → ScriptRead Word
  | 0, _ => return []
  | budget + 1, context => do
    match ← peek with
    | none =>
      match unclosed? context with
      | some cause => refuse cause
      | none => return []
    | some '$' =>
      skip
      let piece ← afterDollar g (quotes context)
      return piece :: (← pieces g budget context)
    | some '\x60' =>
      skip
      let piece ← afterBackquote g (quotes context)
      return piece :: (← pieces g budget context)
    | some '\\' =>
      skip
      match ← takeRaw with
      | none => return .char '\\' true :: (← pieces g budget context)
      | some c =>
        let piece := Piece.char c true
        let rest ← pieces g budget context
        return if isProtected context c then piece :: rest else .char '\\' true :: piece :: rest
    | some c =>
      match role context c with
      | .ends => return []
      | .closes =>
        skip
        return []
      | .singleQuote =>
        skip
        let text ← singleQuoted
        return .mark :: Piece.chars true text ++ (← pieces g budget context)
      | .doubleQuote =>
        skip
        let inner ← g.word .quoted
        return (if inner.isEmpty then [.mark] else inner) ++ (← pieces g budget context)
      | .plain =>
        skip
        match afterParenthesis context c (← get).rest.head? with
        | some context => return .char c (quotes context) :: (← pieces g budget context)
        | none =>
          skip
          return []

/-! ## Tokens -/

/-- Pass over blanks and a comment. -/
def skipBlanks : (budget : Nat) → ScriptRead Unit
  | 0 => return ()
  | budget + 1 => do
    match ← peek with
    | some '#' => modify fun r => { r with rest := r.rest.dropWhile (· ≠ '\n') }
    | some c =>
      if c = ' ' ∨ c = '\t' then
        skip
        skipBlanks budget
    | none => return ()

/-- The sign of a redirection that begins with a character, which is passed over. -/
def redirectionSign (c : Char) : ScriptRead String := do
  let first := String.ofList [c]
  if c = '>' then
    for d in ['>', '|', '&'] do
      if ← accept d then return first.push d
    return first
  if ← accept '<' then return if ← accept '-' then "<<-" else "<<"
  for d in ['&', '>'] do
    if ← accept d then return first.push d
  return first

/-- The operators by their characters, longer ones before their beginnings. -/
def operators : List String := ["&&", "&", "||", "|", ";;", ";", "(", ")"]

/-- An operator whose first character is the next one. -/
def operator? (c : Char) : ScriptRead (Option ScriptToken) := do
  match operators.filter fun o => o.toList.head? = some c with
  | [] => return none
  | [one] =>
    skip
    return some (.operator one)
  | two :: one :: _ =>
    skip
    if ← accept c then return some (.operator two)
    return some (.operator one)

/-- The next token, with keywords taken for words. -/
def rawToken (g : ScriptRules) : ScriptRead ScriptToken := do
  if let some token := (← get).ahead then
    modify fun r => { r with ahead := none }
    return token
  skipBlanks (← size)
  match ← peek with
  | none => return .finish
  | some '\n' =>
    skip
    modify fun r => { r with line := r.line + r.taken, taken := 0 }
    return .newline
  | some c =>
    if let some token ← operator? c then return token
    if c = '<' ∨ c = '>' then
      skip
      return .redirection none (← redirectionSign c)
    if Text.isDecimal c then
      let next := (← get).rest.tail.head?
      if next = some '<' ∨ next = some '>' then
        skip
        skip
        return .redirection (some (c.toNat - 48)) (← redirectionSign (next.getD '>'))
    return .word (← pieces g (← size) .bare)

/-- Put a token back. -/
def putBack (token : ScriptToken) : ScriptRead Unit :=
  modify fun r => { r with ahead := some token }

/-- The next token; keywords are told from words on demand. -/
def token (g : ScriptRules) (keywords : Bool) : ScriptRead ScriptToken := do
  let t ← rawToken g
  return if keywords then t.withKeywords else t

/-- The next token that is no line end.  Every turn takes a character or a token. -/
def tokenBeyondLines (g : ScriptRules) : (budget : Nat) → ScriptRead ScriptToken
  | 0 => return .finish
  | budget + 1 => do
    match ← token g true with
    | .newline => tokenBeyondLines g budget
    | t => return t

/-! ## Texts that commands read -/

/-- A line without the tabs at its start, on demand. -/
def withoutTabs (tabs : Bool) (line : List Char) : List Char :=
  if tabs then line.dropWhile (· = '\t') else line

/-- The lines of a text up to one that is a given text, and the text after that line, with how
many lines are taken.  Tabs at the start of a line are left out on demand. -/
def cutLines (tabs : Bool) (stop : List Char) : (budget : Nat) → List Char →
    List Char × List Char × Nat
  | 0, s => ([], s, 0)
  | _, [] => ([], [], 0)
  | budget + 1, s =>
    let line := s.takeWhile (· ≠ '\n')
    let rest := s.drop (line.length + 1)
    let shown := withoutTabs tabs line
    if shown = stop then ([], rest, 1)
    else
      let (more, rest, count) := cutLines tabs stop budget rest
      (shown ++ (if line.length < s.length then '\n' :: more else more), rest, count + 1)

/-- What follows the lines that are taken is the end of the text. -/
theorem cutLines_suffix (tabs : Bool) (stop : List Char) (budget : Nat) (s : List Char) :
    (cutLines tabs stop budget s).2.1 <:+ s := by
  induction budget generalizing s with
  | zero => exact List.suffix_refl s
  | succ budget ih =>
    unfold cutLines
    split
    · exact List.suffix_refl _
    · exact List.suffix_refl _
    · next b hb _ =>
      obtain rfl := Nat.succ.inj hb
      dsimp only
      split
      · exact List.drop_suffix ..
      · exact (ih _).trans (List.drop_suffix ..)

/-- The text below the current line for a command to read, taken out of the script. -/
def document (g : ScriptRules) (tabs : Bool) (stop : Word) : ScriptRead Word := do
  let r ← get
  let isPlain := stop.all fun
    | .char _ quoted => !quoted
    | _ => false
  let stopText := stop.filterMap fun
    | .char c _ => some c
    | _ => none
  let here := r.rest.takeWhile (· ≠ '\n')
  let (text, rest, count) :=
    cutLines tabs stopText (r.rest.length + 1) (r.rest.drop (here.length + 1))
  set { r with rest := here ++ (if here.length < r.rest.length then '\n' :: rest else rest),
               taken := r.taken + count }
  if isPlain then within text (g.word .document) else return Piece.chars true text

end ScriptReader

end PhasedInduction.Host
