import PhasedInduction.Host.Script.Token

/-!
# The grammar of scripts

Tokens become commands: simple commands with their redirections, pipelines, lists bound by
success and failure, and the compound commands between keywords.  A script is read a line at
a time, so that what a line does comes before a fault in a later one.

Main results:

- Theorem {lit}`ScriptRules.assignment?_chars`: a name and an equals sign make an assignment.
-/

namespace PhasedInduction.Host

namespace ScriptRules

open ScriptReader

/-! ## Words with a meaning -/

/-- Whether a text is a name. -/
def isName (s : List Char) : Bool :=
  match s with
  | c :: rest => Arithmetic.beginsName c && rest.all Arithmetic.inName
  | [] => false

/-- The characters without quotes up to an equals sign, with what follows it. -/
def splitEquals? : Word → Option (List Char × Word)
  | .char '=' false :: rest => some ([], rest)
  | .char c false :: rest => (splitEquals? rest).map fun (name, value) => (c :: name, value)
  | _ => none

/-- The name and the value of a word that is an assignment. -/
def assignment? (w : Word) : Option (ByteText × Word) :=
  match splitEquals? w with
  | some (name, value) => if isName name then some (String.ofList name, value) else none
  | none => none

theorem splitEquals?_chars {name : List Char} (h : '=' ∉ name) (value : Word) :
    splitEquals? (Piece.chars false name ++ .char '=' false :: value) = some (name, value) := by
  induction name with
  | nil => simp [Piece.chars, splitEquals?]
  | cons c name ih =>
    simp only [List.mem_cons, not_or] at h
    have hc : c ≠ '=' := fun e => h.1 e.symm
    have ih := ih h.2
    simp only [Piece.chars] at ih
    simp only [Piece.chars, List.map_cons, List.cons_append]
    rw [splitEquals?]
    · simp [ih]
    · simpa using hc

/-- A name and an equals sign make an assignment. -/
theorem assignment?_chars {name : List Char} (hname : isName name = true) (h : '=' ∉ name)
    (value : Word) : assignment? (Piece.chars false name ++ .char '=' false :: value) =
      some (String.ofList name, value) := by
  simp [assignment?, splitEquals?_chars h, hname]

/-- The names that no function may have. -/
def reserved : List ByteText :=
  [".", ":", "break", "continue", "eval", "exec", "exit", "export", "local", "readonly", "return",
    "set", "shift", "times", "trap", "unset"]

/-- Refuse a token, perhaps naming the one expected in its place. -/
def unexpected {α : Type} (t : ScriptToken) (expecting : Option String) : ScriptRead α :=
  refuse (.unexpected t.shown expecting)

/-- Take a token beyond line ends or not, with keywords. -/
def next (g : ScriptRules) (beyondLines : Bool) : ScriptRead ScriptToken := do
  if beyondLines then tokenBeyondLines g (← size) else token g true

/-- Take a keyword, or refuse the token in its place. -/
def expect (g : ScriptRules) (beyondLines : Bool) (keyword : String) : ScriptRead Unit := do
  let t ← if beyondLines then next g true else token g false
  if t.isKeyword keyword then return ()
  unexpected t (some ("\"" ++ keyword ++ "\""))

/-! ## Redirections -/

/-- What a sign makes of the word behind it. -/
def redirectionKind : String → RedirectionKind
  | "<" => .file .read
  | ">" | ">|" => .file .write
  | ">>" => .file .append
  | "<>" => .file .readWrite
  | "<<" | "<<-" => .document
  | _ => .copy

/-- The redirection after its sign. -/
def redirection (g : ScriptRules) (descriptor : Option Nat) (sign : String) :
    ScriptRead (Redirection Word) := do
  let usual := if sign.toList.head? = some '<' then 0 else 1
  match ← token g false with
  | .word w =>
    let kind := redirectionKind sign
    let word ← if kind = .document then document g (sign = "<<-") w else pure w
    return ⟨descriptor.getD usual, kind, word⟩
  | t => unexpected t none

/-- The redirections behind a command.  Every turn takes a token. -/
def redirections (g : ScriptRules) : (budget : Nat) → ScriptRead (List (Redirection Word))
  | 0 => return []
  | budget + 1 => do
    match ← token g true with
    | .redirection descriptor sign =>
      let first ← redirection g descriptor sign
      return first :: (← redirections g budget)
    | t =>
      putBack t
      return []

/-- A command with the redirections behind it. -/
def withRedirections (g : ScriptRules) (line : Nat) (c : ScriptCommand) :
    ScriptRead ScriptCommand := do
  match ← redirections g (← size) with
  | [] => return c
  | rs => return .redirected line rs c

/-! ## Simple commands -/

/-- The parts of a simple command. -/
structure SimpleParts where
  assignments : List (ByteText × Word) := []
  words : List Word := []
  redirections : List (Redirection Word) := []

/-- The parts of a simple command whose first token is given, and whether parentheses follow
that make it a function.  Every turn takes a token. -/
def simpleParts (g : ScriptRules) : (budget : Nat) → SimpleParts → ScriptToken →
    ScriptRead (SimpleParts × Bool)
  | 0, parts, _ => return (parts, false)
  | budget + 1, parts, t => do
    match t with
    | .word w =>
      let parts := match parts.words, assignment? w with
        | [], some assignment => { parts with assignments := parts.assignments ++ [assignment] }
        | _, _ => { parts with words := parts.words ++ [w] }
      simpleParts g budget parts (← token g false)
    | .redirection descriptor sign =>
      let r ← redirection g descriptor sign
      simpleParts g budget { parts with redirections := parts.redirections ++ [r] }
        (← token g false)
    | t =>
      if t.isOperator "(" ∧ parts.words.length = 1 ∧ parts.assignments.isEmpty ∧
          parts.redirections.isEmpty then return (parts, true)
      putBack t
      return (parts, false)

/-- The name of a function. -/
def functionName (words : List Word) : ScriptRead ByteText := do
  match words.head?.bind Piece.text? with
  | some name =>
    if isName name ∧ ¬reserved.contains (String.ofList name) then return String.ofList name
    refuse .badFunctionName
  | none => refuse .badFunctionName

/-! ## Compound commands -/

/-- A command between two keywords, the first of which is taken. -/
def upTo (g : ScriptRules) (keyword : String) : ScriptRead ScriptCommand := do
  let body ← g.list false
  expect g false keyword
  return body

/-- What follows a condition and its command.  Every turn takes a keyword. -/
def choiceRest (g : ScriptRules) : (budget : Nat) → ScriptRead ScriptCommand
  | 0 => refuse .tooDeep
  | budget + 1 => do
    let test ← upTo g "then"
    let yes ← g.list false
    let t ← token g false
    if t.isKeyword "elif" then return .choice test yes (← choiceRest g budget)
    if t.isKeyword "else" then return .choice test yes (← upTo g "fi")
    if t.isKeyword "fi" then return .choice test yes .nothing
    unexpected t (some "\"fi\"")

/-- The words up to the end of their line or a semicolon.  Every turn takes a token. -/
def loopWords (g : ScriptRules) : (budget : Nat) → ScriptRead (List Word)
  | 0 => return []
  | budget + 1 => do
    match ← token g false with
    | .word w => return w :: (← loopWords g budget)
    | .newline => return []
    | t => if t.isOperator ";" then return [] else unexpected t none

/-- The loop over words after its keyword. -/
def eachLoop (g : ScriptRules) (line : Nat) : ScriptRead ScriptCommand := do
  let name ← match ← token g false with
    | .word w =>
      match Piece.text? w with
      | some name => if isName name then pure (String.ofList name) else refuse .badLoopVariable
      | none => refuse .badLoopVariable
    | _ => refuse .badLoopVariable
  let t ← next g true
  let words ←
    if t.isKeyword "in" then loopWords g (← size)
    else
      if ¬t.isOperator ";" then putBack t
      pure [allParameters]
  expect g true "do"
  return .each line name words (← upTo g "done")

/-- The word that a pattern is made of, whatever token it is. -/
def patternWord : ScriptToken → Word
  | .word w => w
  | .keyword text => Piece.chars false text.toList
  | _ => []

/-- The patterns up to the closing parenthesis.  Every turn takes a token. -/
def patterns (g : ScriptRules) : (budget : Nat) → ScriptToken → ScriptRead (List Word)
  | 0, _ => return []
  | budget + 1, t => do
    let after ← token g false
    if after.isOperator "|" then
      return patternWord t :: (← patterns g budget (← token g false))
    if after.isOperator ")" then return [patternWord t]
    unexpected after (some "\")\"")

/-- The arms of a choice by patterns.  Every turn takes a token. -/
def arms (g : ScriptRules) : (budget : Nat) → ScriptRead (List (List Word × ScriptCommand))
  | 0 => return []
  | budget + 1 => do
    let t ← next g true
    if t.isKeyword "esac" then return []
    let first ← if t.isOperator "(" then token g false else pure t
    let fitting ← patterns g (← size) first
    let body ← g.list true
    let t ← next g true
    if t.isKeyword "esac" then return [(fitting, body)]
    if t.isOperator ";;" then return (fitting, body) :: (← arms g budget)
    unexpected t (some "\";;\"")

/-- The choice by patterns after its keyword. -/
def patternChoice (g : ScriptRules) (line : Nat) : ScriptRead ScriptCommand := do
  match ← token g false with
  | .word w =>
    expect g true "in"
    return .cases line w (← arms g (← size))
  | t => unexpected t (some "word")

/-- The compound command that a keyword begins. -/
def compound (g : ScriptRules) (line : Nat) (keyword : String) : ScriptRead ScriptCommand := do
  match keyword with
  | "if" => choiceRest g (← size)
  | "while" =>
    let test ← upTo g "do"
    return .loop true test (← upTo g "done")
  | "until" =>
    let test ← upTo g "do"
    return .loop false test (← upTo g "done")
  | "for" => eachLoop g line
  | "case" => patternChoice g line
  | "\x7b" => upTo g "\x7d"
  | _ => unexpected (.keyword keyword) none

/-! ## Commands and lists -/

/-- The command whose first token is given.  A function takes the command behind it, which
begins with a token further on. -/
def command (g : ScriptRules) : (budget : Nat) → ScriptToken → ScriptRead ScriptCommand
  | 0, _ => refuse .tooDeep
  | budget + 1, t => do
    let line := (← get).line
    match t with
    | .keyword keyword => withRedirections g line (← compound g line keyword)
    | .operator "(" =>
      let body ← g.list false
      let t ← token g false
      if t.isOperator ")" then withRedirections g line (.inner line body)
      else unexpected t (some "\")\"")
    | .operator _ | .newline | .finish => unexpected t none
    | t =>
      match ← simpleParts g (← size) {} t with
      | (parts, false) =>
        return .simple line parts.assignments parts.words parts.redirections
      | (parts, true) =>
        let t ← token g false
        if ¬t.isOperator ")" then unexpected t (some "\")\"")
        let name ← functionName parts.words
        return .define name (← command g budget (← next g true))

/-- More commands of a pipeline.  Every turn takes a token. -/
def pipelineRest (g : ScriptRules) : (budget : Nat) → ScriptRead (List ScriptCommand)
  | 0 => return []
  | budget + 1 => do
    let t ← token g false
    if t.isOperator "|" then
      let c ← command g (← size) (← next g true)
      return c :: (← pipelineRest g budget)
    putBack t
    return []

/-- The pipeline whose first token is given. -/
def pipeline (g : ScriptRules) (t : ScriptToken) : ScriptRead ScriptCommand := do
  let isInverted := t.isKeyword "!"
  let t ← if isInverted then next g false else pure t
  let first ← command g (← size) t
  let c := match ← pipelineRest g (← size) with
    | [] => first
    | more => .pipeline (first :: more)
  return if isInverted then .inverted c else c

/-- More pipelines bound by success or failure.  Every turn takes a token. -/
def boundRest (g : ScriptRules) : (budget : Nat) → ScriptCommand → ScriptRead ScriptCommand
  | 0, left => return left
  | budget + 1, left => do
    let t ← token g false
    if t.isOperator "&&" then
      let right ← pipeline g (← next g true)
      boundRest g budget (.both left right)
    else if t.isOperator "||" then
      let right ← pipeline g (← next g true)
      boundRest g budget (.either left right)
    else
      putBack t
      return left

/-- The pipelines bound by success or failure whose first token is given, and the token behind
them.  Before an ampersand they run in the background. -/
def bound (g : ScriptRules) (t : ScriptToken) : ScriptRead (ScriptCommand × ScriptToken) := do
  let c ← boundRest g (← size) (← pipeline g t)
  let t ← token g false
  return (if t.isOperator "&" then .background c else c, t)

/-- Two commands one after the other. -/
def join : ScriptCommand → ScriptCommand → ScriptCommand
  | .nothing, second => second
  | first, second => .sequence first second

/-- Whether commands may follow a token in a list. -/
def separates (t : ScriptToken) : Bool := t.isOperator ";" || t.isOperator "&"

/-- The list of commands within a compound command, behind those read before.  Every turn
takes a token. -/
def listFrom (g : ScriptRules) : (budget : Nat) → (mayEnd : Bool) → ScriptCommand →
    ScriptRead ScriptCommand
  | 0, _, _ => refuse .tooDeep
  | budget + 1, mayEnd, before => do
    let t ← next g true
    match t with
    | .finish =>
      putBack t
      return before
    | t =>
      if mayEnd ∧ t.endsList then
        putBack t
        return before
      let (c, t) ← bound g t
      let all := join before c
      match t with
      | .newline => listFrom g budget true all
      | t =>
        if separates t then listFrom g budget true all
        else
          putBack t
          return all

/-- The commands of a line, behind those read before.  Every turn takes a token. -/
def lineFrom (g : ScriptRules) : (budget : Nat) → ScriptCommand → ScriptRead ScriptCommand
  | 0, _ => refuse .tooDeep
  | budget + 1, before => do
    match ← next g false with
    | .newline => return before
    | .finish =>
      putBack .finish
      return before
    | t =>
      let (c, t) ← bound g t
      let all := join before c
      match t with
      | .newline => return all
      | .finish =>
        putBack .finish
        return all
      | t => if separates t then lineFrom g budget all else unexpected t none

/-- The rules where parts hold other parts down to a depth. -/
def ofDepth : (depth : Nat) → ScriptRules
  | 0 => ⟨fun _ => refuse .tooDeep, fun _ => refuse .tooDeep⟩
  | depth + 1 =>
    { list := fun mayBeEmpty => do listFrom (ofDepth depth) (← size) mayBeEmpty .nothing
      word := fun context => do pieces (ofDepth depth) (← size) context }

end ScriptRules

/-! ## Lines -/

namespace ScriptReader

/-- The reader at the start of a text. -/
def ofText (text : List Char) (line : Nat) : ScriptReader := { rest := text, line }

/-- Whether nothing is left of a script. -/
def atEnd (r : ScriptReader) : Bool :=
  match r.ahead with
  | some .finish => true
  | some _ => false
  | none => r.rest.isEmpty

/-- The commands of the next line.  Every part holds less text than the one it stands in, so
the length of the text is depth enough. -/
def nextLine : ScriptRead ScriptCommand := do
  let length ← size
  ScriptRules.lineFrom (.ofDepth length) length .nothing

end ScriptReader

end PhasedInduction.Host
