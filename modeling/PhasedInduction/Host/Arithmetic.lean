import PhasedInduction.Host.Format.Integer

/-!
# Arithmetic

The integer expressions of the shell: a text becomes tokens, the tokens an expression, and
the expression a number of sixty-four bits, with the variables that it sets.  Operands that
are not needed are read and not evaluated.
-/

namespace PhasedInduction.Host

/-- Operators between two numbers that are both needed. -/
inductive ArithmeticOperator where
  | multiply
  | divide
  | remainder
  | add
  | subtract
  | shiftUp
  | shiftDown
  | less
  | lessOrEqual
  | greater
  | greaterOrEqual
  | equal
  | different
  | bitAnd
  | bitXor
  | bitOr
deriving DecidableEq, Repr

/-- Integer expressions. -/
inductive Arithmetic where
  | number (n : Int)
  | named (name : ByteText)
  | negative (e : Arithmetic)
  /-- One for zero, and zero for all else. -/
  | isZero (e : Arithmetic)
  | complement (e : Arithmetic)
  | binary (o : ArithmeticOperator) (a b : Arithmetic)
  | both (a b : Arithmetic)
  | either (a b : Arithmetic)
  | choice (test yes no : Arithmetic)
  /-- Set a variable, to a number or to what an operator makes of its value and a number. -/
  | assign (name : ByteText) (o : Option ArithmeticOperator) (e : Arithmetic)
deriving DecidableEq, Repr

/-- Why an expression has no value. -/
inductive ArithmeticFault where
  | expected (what : String)
  | divisionByZero
  /-- The value of a variable is no number. -/
  | illegalNumber (value : ByteText)
deriving DecidableEq, Repr

/-- The message of a fault in an expression. -/
def ArithmeticFault.message (text : ByteText) : ArithmeticFault → ByteText
  | expected what => "arithmetic expression: expecting " ++ what ++ ": \"" ++ text ++ "\""
  | divisionByZero => "arithmetic expression: division by zero: \"" ++ text ++ "\""
  | illegalNumber value => "Illegal number: " ++ value

namespace Arithmetic

/-! ## Tokens -/

/-- The parts of a text. -/
inductive Token where
  | number (n : Int)
  | name (name : ByteText)
  | symbol (text : String)
  /-- A character that means nothing. -/
  | unknown
deriving DecidableEq, Repr

/-- The symbols, longer ones before their beginnings. -/
def symbols : List String :=
  ["<<=", ">>=", "<<", ">>", "<=", ">=", "==", "!=", "&&", "||", "+=", "-=", "*=", "/=", "%=",
    "&=", "^=", "|=", "+", "-", "*", "/", "%", "<", ">", "&", "|", "^", "!", "~", "?", ":", "(",
    ")", "="]

/-- Whether a character may begin a name. -/
def beginsName (c : Char) : Bool := c.isAlpha || c = '_'

/-- Whether a character may stand in a name. -/
def inName (c : Char) : Bool := c.isAlphanum || c = '_'

/-- The tokens of a text.  Every turn takes a character. -/
def tokensFrom : (budget : Nat) → List Char → List Token
  | 0, _ => []
  | _, [] => []
  | budget + 1, c :: s =>
    if Integer.isSpace c then tokensFrom budget s
    else if beginsName c then
      .name (String.ofList ((c :: s).takeWhile inName)) ::
        tokensFrom budget ((c :: s).dropWhile inName)
    else
      match Integer.magnitude? (c :: s) with
      | some (n, rest) => .number (min n Integer.largest) :: tokensFrom budget rest
      | none =>
        match symbols.find? fun symbol => symbol.toList.isPrefixOf (c :: s) with
        | some symbol => .symbol symbol :: tokensFrom budget ((c :: s).drop symbol.length)
        | none => .unknown :: tokensFrom budget s

/-- The tokens of a text. -/
def tokens (s : List Char) : List Token := tokensFrom s.length s

/-! ## Reading -/

/-- The operators of each level, the closest binding first. -/
def levels : List (List (String × ArithmeticOperator)) :=
  [[("*", .multiply), ("/", .divide), ("%", .remainder)], [("+", .add), ("-", .subtract)],
    [("<<", .shiftUp), (">>", .shiftDown)],
    [("<", .less), ("<=", .lessOrEqual), (">", .greater), (">=", .greaterOrEqual)],
    [("==", .equal), ("!=", .different)], [("&", .bitAnd)], [("^", .bitXor)], [("|", .bitOr)]]

/-- The symbols that set a variable. -/
def assignments : List (String × Option ArithmeticOperator) :=
  [("=", none), ("*=", some .multiply), ("/=", some .divide), ("%=", some .remainder),
    ("+=", some .add), ("-=", some .subtract), ("<<=", some .shiftUp), (">>=", some .shiftDown),
    ("&=", some .bitAnd), ("^=", some .bitXor), ("|=", some .bitOr)]

/-- An expression with the tokens left. -/
abbrev Result := Except ArithmeticFault (Arithmetic × List Token)

/-- A part of the grammar. -/
inductive Rule where
  | assignment
  | choice
  | either
  | both
  /-- The operators from a level on. -/
  | level (n : Nat)
  | primary
  /-- More operands of a level behind an expression. -/
  | more (n : Nat) (left : Arithmetic)
deriving DecidableEq, Repr

/-- How deep the rules are nested within one pair of parentheses, at most. -/
def depth : Nat := 16

/-- The expression at the start of some tokens. -/
def read : (budget : Nat) → Rule → List Token → Result
  | 0, _, _ => .error (.expected "primary")
  | budget + 1, .assignment, tokens =>
    match tokens with
    | .name name :: .symbol s :: rest =>
      match assignments.lookup s with
      | some o => (read budget .assignment rest).map fun (e, rest) => (.assign name o e, rest)
      | none => read budget .choice tokens
    | _ => read budget .choice tokens
  | budget + 1, .choice, tokens => do
    let (test, rest) ← read budget .either tokens
    match rest with
    | .symbol "?" :: rest =>
      let (yes, rest) ← read budget .assignment rest
      match rest with
      | .symbol ":" :: rest =>
        let (no, rest) ← read budget .choice rest
        return (.choice test yes no, rest)
      | _ => .error (.expected "':'")
    | _ => return (test, rest)
  | budget + 1, .either, tokens => do
    let (a, rest) ← read budget .both tokens
    match rest with
    | .symbol "||" :: rest =>
      let (b, rest) ← read budget .either rest
      return (.either a b, rest)
    | _ => return (a, rest)
  | budget + 1, .both, tokens => do
    let (a, rest) ← read budget (.level levels.length) tokens
    match rest with
    | .symbol "&&" :: rest =>
      let (b, rest) ← read budget .both rest
      return (.both a b, rest)
    | _ => return (a, rest)
  | budget + 1, .level 0, tokens => read budget .primary tokens
  | budget + 1, .level (n + 1), tokens => do
    let (a, rest) ← read budget (.level n) tokens
    read budget (.more n a) rest
  | budget + 1, .more n left, tokens =>
    match tokens with
    | .symbol s :: rest =>
      match (levels[n]?.getD []).lookup s with
      | some o => do
        let (b, rest) ← read budget (.level n) rest
        read budget (.more n (.binary o left b)) rest
      | none => .ok (left, tokens)
    | _ => .ok (left, tokens)
  | budget + 1, .primary, tokens =>
    match tokens with
    | .number n :: rest => .ok (.number n, rest)
    | .name name :: rest => .ok (.named name, rest)
    | .symbol "(" :: rest => do
      let (e, rest) ← read budget .assignment rest
      match rest with
      | .symbol ")" :: rest => return (e, rest)
      | _ => .error (.expected "')'")
    | .symbol "+" :: rest => read budget .primary rest
    | .symbol "-" :: rest => (read budget .primary rest).map fun (e, rest) => (.negative e, rest)
    | .symbol "!" :: rest => (read budget .primary rest).map fun (e, rest) => (.isZero e, rest)
    | .symbol "~" :: rest =>
      (read budget .primary rest).map fun (e, rest) => (.complement e, rest)
    | _ => .error (.expected "primary")

/-- The expression of a text. -/
def ofText (s : List Char) : Except ArithmeticFault Arithmetic := do
  let tokens := tokens s
  let (e, rest) ← read (depth * (tokens.length + 1)) .assignment tokens
  if rest.isEmpty then return e else .error (.expected "EOF")

/-! ## Evaluating -/

/-- A number as one of sixty-four bits without sign. -/
def toWord (n : Int) : Nat := (n % (Integer.words : Int)).toNat

/-- What an answer is as a number. -/
def ofAnswer (answer : Bool) : Int := if answer then 1 else 0

/-- The value of an operator. -/
def apply (o : ArithmeticOperator) (a b : Int) : Except ArithmeticFault Int :=
  let shift := (b.emod 64).toNat
  match o with
  | .multiply => .ok (Integer.wrapped (a * b))
  | .divide => if b = 0 then .error .divisionByZero else .ok (Integer.wrapped (a.tdiv b))
  | .remainder => if b = 0 then .error .divisionByZero else .ok (a.tmod b)
  | .add => .ok (Integer.wrapped (a + b))
  | .subtract => .ok (Integer.wrapped (a - b))
  | .shiftUp => .ok (Integer.wrapped (a * (Nat.pow 2 shift : Nat)))
  | .shiftDown => .ok (a.fdiv (Nat.pow 2 shift : Nat))
  | .less => .ok (ofAnswer (a < b))
  | .lessOrEqual => .ok (ofAnswer (a ≤ b))
  | .greater => .ok (ofAnswer (b < a))
  | .greaterOrEqual => .ok (ofAnswer (b ≤ a))
  | .equal => .ok (ofAnswer (a = b))
  | .different => .ok (ofAnswer (a ≠ b))
  | .bitAnd => .ok (Integer.wrapped (Nat.land (toWord a) (toWord b)))
  | .bitXor => .ok (Integer.wrapped (Nat.xor (toWord a) (toWord b)))
  | .bitOr => .ok (Integer.wrapped (Nat.lor (toWord a) (toWord b)))

/-- The variables that an expression has set, the last one first. -/
abbrev Settings := List (ByteText × Int)

/-- The number that the value of a variable denotes. -/
def valueNumber (value : ByteText) : Except ArithmeticFault Int :=
  if value.toList.all Integer.isSpace then .ok 0
  else
    match Integer.prefixed? value.toList with
    | some (n, rest) =>
      if rest.all Integer.isSpace ∧ Integer.least ≤ n ∧ n ≤ Integer.largest then .ok n
      else .error (.illegalNumber value)
    | none => .error (.illegalNumber value)

/-- The number of a variable, which is zero if it has no value. -/
def look (values : ByteText → Option ByteText) (set : Settings) (name : ByteText) :
    Except ArithmeticFault Int :=
  match set.lookup name with
  | some n => .ok n
  | none =>
    match values name with
    | some value => valueNumber value
    | none => .ok 0

/-- The value of an expression, with the variables set so far. -/
def evaluate (values : ByteText → Option ByteText) :
    Arithmetic → Settings → Except ArithmeticFault (Int × Settings)
  | .number n, set => .ok (n, set)
  | .named name, set => (look values set name).map fun n => (n, set)
  | .negative e, set => (evaluate values e set).map fun (n, set) => (Integer.wrapped (-n), set)
  | .isZero e, set => (evaluate values e set).map fun (n, set) => (ofAnswer (n = 0), set)
  | .complement e, set => (evaluate values e set).map fun (n, set) => (-n - 1, set)
  | .binary o a b, set => do
    let (m, set) ← evaluate values a set
    let (n, set) ← evaluate values b set
    return (← apply o m n, set)
  | .both a b, set => do
    let (m, set) ← evaluate values a set
    if m = 0 then return (0, set)
    let (n, set) ← evaluate values b set
    return (ofAnswer (n ≠ 0), set)
  | .either a b, set => do
    let (m, set) ← evaluate values a set
    if m ≠ 0 then return (1, set)
    let (n, set) ← evaluate values b set
    return (ofAnswer (n ≠ 0), set)
  | .choice test yes no, set => do
    let (m, set) ← evaluate values test set
    if m ≠ 0 then evaluate values yes set else evaluate values no set
  | .assign name o e, set => do
    let (n, set) ← evaluate values e set
    let n ← match o with
      | none => .ok n
      | some o => do apply o (← look values set name) n
    return (n, (name, n) :: set)

/-- The value of a text with the variables that it sets, the first one first. -/
def value (values : ByteText → Option ByteText) (s : List Char) :
    Except ArithmeticFault (Int × Settings) := do
  let (n, set) ← evaluate values (← ofText s) []
  return (n, set.reverse)

end Arithmetic

end PhasedInduction.Host
