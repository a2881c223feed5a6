import PhasedInduction.Host.Condition.Basic

/-!
# Conditions outside a shell

How the program {lit}`test` reads its words.  Up to four words are read by their number;
more are read as one condition with negations, conjunctions and disjunctions.
-/

namespace PhasedInduction.Host.OutsideTest

/-- An answer with the words left. -/
abbrev Result := Except ConditionFault (Bool × List ByteText)

/-- Whether a word is a hyphen with one character. -/
def looksUnary (word : ByteText) : Bool :=
  match word.toList with
  | ['-', _] => true
  | _ => false

/-- Whether a word is an operator between two operands; the order of texts has none here. -/
def isBinary (word : ByteText) : Bool :=
  word = "==" ||
    match BinaryOperator.ofWord? word with
    | none | some .before | some .behind => false
    | some _ => true

/-- The number of a word. -/
def number (word : ByteText) : Except ConditionFault Int :=
  match wholeNumber? word with
  | some n => .ok n
  | none => .error (.invalidInteger word)

/-- The answer of a word with one operand. -/
def unary (files : FileTree) (last : ByteText) : List ByteText → Result
  | word :: rest =>
    match unaryLetter? word, rest with
    | some letter, operand :: rest =>
      (unaryHolds files number letter operand).map fun v => (v, rest)
    | some _, [] => .error (.missingArgument last)
    | none, _ => .error (.unaryExpected word)
  | [] => .error (.missingArgument last)

/-- The answer of an operator between two operands. -/
def binary (files : FileTree) (last : ByteText) : List ByteText → Result
  | a :: operator :: b :: rest =>
    let o := (BinaryOperator.ofWord? operator).getD .same
    (binaryHolds files number o a b).map fun v => (v, rest)
  | _ => .error (.missingArgument last)

/-- The answer of a single word. -/
def one : List ByteText → Result
  | word :: rest => .ok (word ≠ "", rest)
  | [] => .ok (false, [])

/-- The answer of two words. -/
def two (files : FileTree) (last : ByteText) (words : List ByteText) : Result :=
  match words with
  | "!" :: rest => (one rest).map fun (v, rest) => (!v, rest)
  | word :: _ =>
    if looksUnary word then unary files last words else .error (.missingArgument last)
  | [] => .ok (false, [])

/-- The answer of three words. -/
def three (files : FileTree) (last : ByteText) (longer : List ByteText → Result)
    (words : List ByteText) : Result :=
  match words with
  | a :: operator :: b :: rest =>
    if isBinary operator then binary files last words
    else if a = "!" then (two files last (operator :: b :: rest)).map fun (v, rest) => (!v, rest)
    else if a = "(" ∧ b = ")" then .ok (operator ≠ "", rest)
    else if operator = "-a" ∨ operator = "-o" then longer words
    else .error (.binaryExpected operator)
  | _ => .error (.missingArgument last)

/-- The answer of so many words at the start; more than four are read by the function
given. -/
def counted (files : FileTree) (last : ByteText) (longer : List ByteText → Result)
    (count : Nat) (words : List ByteText) : Result :=
  match count with
  | 1 => one words
  | 2 => two files last words
  | 3 => three files last longer words
  | 4 =>
    match words with
    | "!" :: rest => (three files last longer rest).map fun (v, rest) => (!v, rest)
    | "(" :: a :: b :: ")" :: rest =>
      (two files last [a, b]).map fun (v, _) => (v, rest)
    | words => longer words
  | _ => longer words

/-- How many words stand before the closing parenthesis: up to four, or all. -/
def countInside (words : List ByteText) : Nat :=
  let n := 1 + (words.tail.takeWhile (· ≠ ")")).length
  if 4 ≤ n then words.length else n

/-- The answer of the words at the start, with the words left.  Every level of a word is one
turn, so four turns for a word are budget enough. -/
def read (files : FileTree) (last : ByteText) :
    (budget : Nat) → ConditionLevel → List ByteText → Result
  | 0, _, words => .ok (false, words)
  | budget + 1, .disjunction, words => do
    let (a, rest) ← read files last budget .conjunction words
    if rest.head? = some "-o" then
      let (b, rest) ← read files last budget .disjunction rest.tail
      return (a || b, rest)
    return (a, rest)
  | budget + 1, .conjunction, words => do
    let (a, rest) ← read files last budget .negation words
    if rest.head? = some "-a" then
      let (b, rest) ← read files last budget .conjunction rest.tail
      return (a && b, rest)
    return (a, rest)
  | budget + 1, .negation, words =>
    match words with
    | [] => .error (.missingArgument last)
    | "!" :: rest =>
      if rest.isEmpty then .error (.missingArgument last)
      else (read files last budget .negation rest).map fun (v, rest) => (!v, rest)
    | "(" :: inner =>
      if inner.isEmpty then .error (.missingArgument last)
      else do
        let longer := read files last budget .disjunction
        let (v, rest) ← counted files last longer (countInside inner) inner
        match rest with
        | ")" :: rest => return (v, rest)
        | [] => .error (.parenthesisExpected none)
        | word :: _ => .error (.parenthesisExpected (some word))
    | word :: rest =>
      if (rest.head?.map isBinary).getD false ∧ 2 ≤ rest.length then binary files last words
      else if looksUnary word then unary files last words
      else .ok (word ≠ "", rest)

/-- The answer of some words. -/
def answer (files : FileTree) (words : List ByteText) : Except ConditionFault Bool :=
  match words.getLast? with
  | none => .ok false
  | some last => do
    let longer := read files last (4 * words.length + 4) .disjunction
    let (v, rest) ← counted files last longer words.length words
    match rest with
    | [] => return v
    | word :: _ => .error (.extraArgument word)

/-- The program under one of its two names; the name {lit}`[` wants a closing bracket. -/
def run (name : ByteText) (i : Invocation) : Process :=
  conditionProcess name <|
    if name = "[" then
      if i.arguments.getLast? = some "]" then answer i.files i.arguments.dropLast
      else .error .missingBracket
    else answer i.files i.arguments

end PhasedInduction.Host.OutsideTest
