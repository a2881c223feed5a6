import PhasedInduction.Host.Device
import PhasedInduction.Host.Format.Basic

/-!
# Conditions

The questions that {lit}`test` answers about texts, numbers and files.  A word is an operator
with one operand, an operator with two, or neither.
-/

namespace PhasedInduction.Host

/-- Why a condition cannot be answered. -/
inductive ConditionFault where
  | unexpectedOperator (word : ByteText)
  | argumentExpected (operator : ByteText)
  | closingParenthesis
  | illegalNumber (word : ByteText)
  | bracket
  | missingArgument (last : ByteText)
  | unaryExpected (word : ByteText)
  | binaryExpected (word : ByteText)
  | extraArgument (word : ByteText)
  | invalidInteger (word : ByteText)
  | missingBracket
  | parenthesisExpected (found : Option ByteText)
deriving DecidableEq, Repr

/-- The message of a fault: the first five are those of a shell, the others those of a
program. -/
def ConditionFault.message : ConditionFault → ByteText
  | unexpectedOperator word => (if word = "" then "" else word ++ ": ") ++ "unexpected operator"
  | argumentExpected operator => operator ++ ": argument expected"
  | closingParenthesis => "closing paren expected"
  | illegalNumber word => "Illegal number: " ++ word
  | bracket => "missing ]"
  | missingArgument last => "missing argument after " ++ quoted last
  | unaryExpected word => quoted word ++ ": unary operator expected"
  | binaryExpected word => quoted word ++ ": binary operator expected"
  | extraArgument word => "extra argument " ++ quoted word
  | invalidInteger word => "invalid integer " ++ quoted word
  | missingBracket => "missing " ++ quoted "]"
  | parenthesisExpected none => quoted ")" ++ " expected"
  | parenthesisExpected (some found) => quoted ")" ++ " expected, found " ++ quoted found

/-- Questions about two numbers. -/
inductive Comparison where
  | equal
  | different
  | less
  | lessOrEqual
  | greater
  | greaterOrEqual
deriving DecidableEq, Repr

/-- Whether a comparison of two numbers holds. -/
def Comparison.holds : Comparison → Int → Int → Bool
  | equal, a, b => a = b
  | different, a, b => a ≠ b
  | less, a, b => a < b
  | lessOrEqual, a, b => a ≤ b
  | greater, a, b => b < a
  | greaterOrEqual, a, b => b ≤ a

/-- Operators between two operands. -/
inductive BinaryOperator where
  | same
  | other
  | before
  | behind
  | compare (c : Comparison)
  | newer
  | older
  | sameFile
deriving DecidableEq, Repr

namespace BinaryOperator

/-- The operators between two operands by their words. -/
def table : List (ByteText × BinaryOperator) :=
  [("=", same), ("!=", other), ("<", before), (">", behind),
    ("-eq", .compare .equal), ("-ne", .compare .different), ("-lt", .compare .less),
    ("-le", .compare .lessOrEqual), ("-gt", .compare .greater),
    ("-ge", .compare .greaterOrEqual), ("-nt", newer), ("-ot", older), ("-ef", sameFile)]

/-- The operator of a word. -/
def ofWord? (word : ByteText) : Option BinaryOperator := table.lookup word

end BinaryOperator

/-- The letters of the operators with one operand. -/
def unaryLetters : List Char :=
  ['r', 'w', 'x', 'e', 'f', 'd', 'c', 'b', 'p', 'u', 'g', 'k', 's', 't', 'z', 'n', 'h', 'O', 'G',
    'L', 'S']

/-- The letter of an operator with one operand. -/
def unaryLetter? (word : ByteText) : Option Char :=
  match word.toList with
  | ['-', letter] => if unaryLetters.contains letter then some letter else none
  | _ => none

/-- Whether the file that a path leads to is as a letter says. -/
def fileIs (files : FileTree) (letter : Char) (path : ByteText) : Bool :=
  let device := match placeOf files path with
    | .ok place => isDevice place
    | .error _ => false
  match nodeOf? files path with
  | none => false
  | some node =>
    match letter with
    | 'e' | 'r' | 'w' | 'O' | 'G' => true
    | 'f' => node ≠ .directory && !device
    | 'd' => node = .directory
    | 'c' => device
    | 's' => node ≠ .file ""
    | 'x' => (match node with | .directory | .executable _ => true | _ => false)
    | _ => false

/-- The answer of an operator about two files. -/
def filesHold (files : FileTree) (o : BinaryOperator) (a b : ByteText) : Bool :=
  match o with
  | .newer => (nodeOf? files a).isSome && (nodeOf? files b).isNone
  | .older => (nodeOf? files a).isNone && (nodeOf? files b).isSome
  | _ =>
    match placeOf files a, placeOf files b with
    | .ok p, .ok q => (files.node? p).isSome && p = q
    | _, _ => false

/-- The number that a word denotes as a whole, blanks around it apart. -/
def wholeNumber? (word : ByteText) : Option Int :=
  let s := word.toList.dropWhile Integer.isSpace
  let (negative, s) := match s with
    | '-' :: t => (true, t)
    | '+' :: t => (false, t)
    | t => (false, t)
  let digits := s.takeWhile Text.isDecimal
  if digits.isEmpty ∨ ¬(s.dropWhile Text.isDecimal).all Integer.isSpace then none
  else
    let n : Int := Text.decimalValue digits
    some (if negative then -n else n)

/-- The answer of an operator with one operand, with a reader for numbers.  No descriptor
belongs to a terminal. -/
def unaryHolds (files : FileTree) (number : ByteText → Except ConditionFault Int)
    (letter : Char) (operand : ByteText) : Except ConditionFault Bool :=
  if letter = 'z' then .ok (operand = "") else if letter = 'n' then .ok (operand ≠ "")
  else if letter = 't' then
    (number operand).map fun _ => false
  else .ok (fileIs files letter operand)

/-- The answer of an operator with two operands, with a reader for numbers. -/
def binaryHolds (files : FileTree) (number : ByteText → Except ConditionFault Int)
    (o : BinaryOperator) (a b : ByteText) : Except ConditionFault Bool :=
  match o with
  | .same => .ok (a = b)
  | .other => .ok (a ≠ b)
  | .before => .ok (a < b)
  | .behind => .ok (b < a)
  | .compare c => do return c.holds (← number a) (← number b)
  | o => .ok (filesHold files o a b)

/-- What part of a condition is read. -/
inductive ConditionLevel where
  | disjunction
  | conjunction
  | negation
deriving DecidableEq, Repr

/-- The process that an answer makes. -/
def conditionProcess (name : ByteText) : Except ConditionFault Bool → Process
  | .ok answer => .silent (if answer then 0 else 1)
  | .error fault => .failing 2 (name ++ ": " ++ fault.message)

end PhasedInduction.Host
