import PhasedInduction.Host.Condition.Basic

/-!
# Conditions inside a shell

How the {lit}`test` of a shell reads its words.  An operator with one operand counts as a
plain word if it is the last one, or if a word with two operands follows it.
-/

namespace PhasedInduction.Host.InsideTest

/-- What the first of some words means. -/
inductive Meaning where
  | nothing
  | operand
  | negation
  | opening
  | closing
  | conjunction
  | disjunction
  | unary (letter : Char)
  | binary (o : BinaryOperator)
deriving DecidableEq, Repr

/-- Whether an operator with one operand is a plain word before these words. -/
def isPlainBefore : List ByteText → Bool
  | [] => true
  | [_] => false
  | next :: _ => (BinaryOperator.ofWord? next).isSome

/-- What the first of some words means. -/
def meaning : List ByteText → Meaning
  | [] => .nothing
  | word :: rest =>
    if word = "!" then .negation
    else if word = "(" then (if rest.isEmpty then .operand else .opening)
    else if word = ")" then .closing
    else if word = "-a" then .conjunction
    else if word = "-o" then .disjunction
    else
      match BinaryOperator.ofWord? word, unaryLetter? word with
      | some o, _ => .binary o
      | none, some letter => if isPlainBefore rest then .operand else .unary letter
      | none, none => .operand

/-- The number of a word, which must fit sixty-four bits. -/
def number (word : ByteText) : Except ConditionFault Int :=
  match wholeNumber? word with
  | some n =>
    if Integer.least ≤ n ∧ n ≤ Integer.largest then .ok n else .error (.illegalNumber word)
  | none => .error (.illegalNumber word)

/-- The answer of an operator between the first two words after it, with the words left. -/
def binary (files : FileTree) (a operator : ByteText) (o : BinaryOperator) :
    List ByteText → Except ConditionFault (Bool × List ByteText)
  | [] => .error (.argumentExpected operator)
  | b :: rest => (binaryHolds files number o a b).map fun v => (v, rest)

/-- The answer of the words at the start, with the words left.  Both operands are always
read.  Every level of a word is one turn, so four turns for a word are budget enough. -/
def read (files : FileTree) : (budget : Nat) → ConditionLevel → List ByteText →
    Except ConditionFault (Bool × List ByteText)
  | 0, _, words => .ok (false, words)
  | budget + 1, .disjunction, words => do
    let (a, rest) ← read files budget .conjunction words
    if meaning rest = .disjunction then
      let (b, rest) ← read files budget .disjunction rest.tail
      return (a || b, rest)
    return (a, rest)
  | budget + 1, .conjunction, words => do
    let (a, rest) ← read files budget .negation words
    if meaning rest = .conjunction then
      let (b, rest) ← read files budget .conjunction rest.tail
      return (a && b, rest)
    return (a, rest)
  | budget + 1, .negation, words =>
    match meaning words, words with
    | .negation, _ :: rest => do
      let (a, rest) ← read files budget .negation rest
      return (!a, rest)
    | .opening, _ :: rest =>
      if meaning rest = .closing then .ok (false, rest.tail)
      else do
        let (a, rest) ← read files budget .disjunction rest
        if meaning rest = .closing then return (a, rest.tail)
        .error .closingParenthesis
    | .unary letter, word :: rest =>
      match rest with
      | [] => .error (.argumentExpected word)
      | operand :: rest =>
        (unaryHolds files number letter operand).map fun v => (v, rest)
    | _, word :: rest =>
      match meaning rest, rest with
      | .binary o, operator :: rest => binary files word operator o rest
      | _, _ => .ok (word ≠ "", rest)
    | _, [] => .ok (false, [])

/-- The answer of words that are read as one condition. -/
def readAll (files : FileTree) (words : List ByteText) : Except ConditionFault Bool := do
  let (answer, rest) ← read files (4 * words.length + 4) .disjunction words
  match rest with
  | [] => return answer
  | _ :: _ =>
    let word := words[words.length - rest.length - 1]?.getD ""
    .error (.unexpectedOperator word)

/-- The answer of three words: an operator in the middle compares the other two, and else
they may stand in parentheses or begin with a negation. -/
def three (files : FileTree) (a operator b : ByteText) : Except ConditionFault Bool :=
  match BinaryOperator.ofWord? operator with
  | some o => binaryHolds files number o a b
  | none =>
    if a = "(" ∧ b = ")" then readAll files [operator]
    else if a = "!" then (readAll files [operator, b]).map (!·)
    else readAll files [a, operator, b]

/-- The answer of some words.  Four of them may stand in parentheses or begin with a
negation; other numbers than three and four are read as one condition. -/
def answer (files : FileTree) (words : List ByteText) : Except ConditionFault Bool :=
  match words with
  | [] => .ok false
  | [a, operator, b] => three files a operator b
  | [a, b, c, d] =>
    if a = "(" ∧ d = ")" then readAll files [b, c]
    else if a = "!" then (three files b c d).map (!·)
    else readAll files words
  | words => readAll files words

/-- The answer of the arguments of a command that goes by one of two names; the name
{lit}`[` wants a closing bracket. -/
def run (files : FileTree) (name : ByteText) (arguments : List ByteText) :
    Except ConditionFault Bool :=
  if name = "[" then
    if arguments.getLast? = some "]" then answer files arguments.dropLast else .error .bracket
  else answer files arguments

end PhasedInduction.Host.InsideTest
