import PhasedInduction.Host.Format.Real
import PhasedInduction.Host.Quoting

/-!
# Printing in a format

A format is a list of directives: bytes that are printed as they are, and conversions that
each take an argument.  It is used again as long as it takes arguments and some are left.
What goes wrong with an argument is told beside what is printed; a conversion that means
nothing ends the printing.

Main results:

- Theorem {lit}`length_filled`: a filled text is as wide as asked for, or as the text.
- Theorem {lit}`Format.run_plain`: a format without conversions prints its own bytes.
-/

namespace PhasedInduction.Host

/-- A width or a number of places in a conversion. -/
inductive Extent where
  | absent
  | given (n : Nat)
  /-- An argument gives it. -/
  | argument
deriving DecidableEq, Repr

/-- How an argument is printed. -/
structure Conversion where
  flags : List Char
  width : Extent
  precision : Extent
  letter : Char
  /-- The conversion as it is written. -/
  source : List Char
deriving DecidableEq, Repr

/-- A part of a format. -/
inductive Directive where
  | plain (bytes : List Char)
  /-- All printing ends, perhaps because of a fault. -/
  | stop (fault : Option EscapeFault)
  | convert (c : Conversion)
  /-- The format ends within a conversion. -/
  | cut (source : List Char)
deriving DecidableEq, Repr

/-- What went wrong while printing in a format. -/
inductive FormatFault where
  | number (fault : NumberFault) (argument : ByteText)
  | cut (source : ByteText)
  | unknown (source : ByteText)
  /-- Arguments are left, of which this is the first. -/
  | excess (argument : ByteText)
  | escape (fault : EscapeFault)
  | width (argument : ByteText)
  | precision (argument : ByteText)
deriving DecidableEq, Repr

/-- What stands in the formats of a program. -/
structure FormatRules where
  /-- The escapes in a format. -/
  escapes : EscapeRules
  /-- The escapes in the arguments of one conversion. -/
  textEscapes : EscapeRules
  /-- How exact its real numbers are. -/
  reals : Real.Exactness
  flags : List Char
  /-- The letters between a conversion's numbers and its own letter, which mean nothing. -/
  lengths : List Char
  /-- Whether conversions may have only those flags that change them. -/
  isStrict : Bool
deriving DecidableEq, Repr

namespace FormatRules

/-- The formats of a shell. -/
def shell : FormatRules :=
  { escapes := .shellFormat, textEscapes := .shellText, reals := .double
    flags := ['#', '-', '+', ' ', '0'], lengths := [], isStrict := false }

/-- The formats of a program. -/
def program : FormatRules :=
  { escapes := .programFormat, textEscapes := .programArgument, reals := .extended
    flags := ['#', '-', '+', ' ', '0', '\'', 'I'], lengths := ['l', 'L', 'h', 'j', 't', 'z']
    isStrict := true }

/-- Whether a conversion may be used. -/
def accepts (r : FormatRules) (c : Conversion) : Bool :=
  let flagged := fun (flags letters : List Char) =>
    letters.contains c.letter && flags.any c.flags.contains
  !r.isStrict ||
    (if c.letter = 'b' ∨ c.letter = 'q' then c.source.length = 2
      else !flagged ['#'] ['c', 'd', 'i', 's', 'u'] && !flagged ['0'] ['c', 's'] &&
        !flagged ['\'', 'I'] ['a', 'A', 'c', 'e', 'E', 'o', 's', 'x', 'X'] &&
        (c.letter ≠ 'c' || c.precision = .absent))

end FormatRules

namespace Format

/-! ## Reading a format -/

/-- A width or a number of places at the start of a text, with the text after it. -/
def extentAt (s : List Char) : Extent × List Char :=
  match s with
  | '*' :: rest => (.argument, rest)
  | _ =>
    match s.takeWhile Text.isDecimal with
    | [] => (.absent, s)
    | digits => (.given (Text.decimalValue digits), s.dropWhile Text.isDecimal)

/-- The conversion after a percent sign, with the text after it. -/
def conversionAt (r : FormatRules) (s : List Char) : Directive × List Char :=
  let (width, rest) := extentAt (s.dropWhile r.flags.contains)
  let (precision, rest) := match rest with
    | '.' :: t =>
      match extentAt t with
      | (.absent, t) => (Extent.given 0, t)
      | found => found
    | t => (.absent, t)
  let rest := rest.dropWhile r.lengths.contains
  let source := '%' :: s.take (s.length - rest.length)
  match rest with
  | [] => (.cut source, [])
  | letter :: rest =>
    (.convert ⟨s.takeWhile r.flags.contains, width, precision, letter, source ++ [letter]⟩, rest)

/-- The directives of a format.  Every turn takes a character, so the length of the format is
budget enough. -/
def directivesFrom (r : FormatRules) : (budget : Nat) → List Char → List Directive
  | 0, _ => []
  | _, [] => []
  | budget + 1, '\\' :: s =>
    let (printed, rest) := r.escapes.escape s
    if printed.stopped then [.stop printed.fault]
    else .plain printed.bytes :: directivesFrom r budget rest
  | budget + 1, '%' :: '%' :: s => .plain ['%'] :: directivesFrom r budget s
  | budget + 1, '%' :: s =>
    let (directive, rest) := conversionAt r s
    directive :: directivesFrom r budget rest
  | budget + 1, c :: s => .plain [c] :: directivesFrom r budget s

/-- The directives of a format. -/
def directives (r : FormatRules) (format : List Char) : List Directive :=
  directivesFrom r format.length format

/-! ## Filling -/

/-- A text brought to a width, to the left or to the right. -/
def filled (left : Bool) (width : Nat) (s : List Char) : List Char :=
  let fill := List.replicate (width - s.length) ' '
  if left then s ++ fill else fill ++ s

/-- A filled text is as wide as asked for, or as the text. -/
theorem length_filled (left : Bool) (width : Nat) (s : List Char) :
    (filled left width s).length = max width s.length := by
  cases left <;> simp [filled] <;> omega

/-- A numeral after its sign brought to a width; zeros fill it behind the sign. -/
def filledNumeral (left zeros : Bool) (width : Nat) (sign numeral : List Char) : List Char :=
  if zeros ∧ ¬left then sign ++ Text.padded (width - sign.length) numeral
  else filled left width (sign ++ numeral)

/-! ## Converting -/

/-- A conversion whose width and places are known. -/
structure Shape where
  flags : List Char
  width : Nat
  left : Bool
  precision : Option Nat
  letter : Char
deriving DecidableEq, Repr

namespace Shape

/-- Whether a flag is set. -/
def has (c : Shape) (flag : Char) : Bool := c.flags.contains flag

/-- The sign in front of a number. -/
def sign (c : Shape) (negative : Bool) : List Char :=
  if negative then ['-'] else if c.has '+' then ['+'] else if c.has ' ' then [' '] else []

/-- A text as it is converted. -/
def text (c : Shape) (s : List Char) : List Char :=
  filled c.left c.width (match c.precision with | some n => s.take n | none => s)

/-- The base of the integers that a letter prints. -/
def base (c : Shape) : Nat :=
  if c.letter = 'o' then 8 else if c.letter = 'x' ∨ c.letter = 'X' then 16 else 10

/-- An integer as it is converted. -/
def integer (c : Shape) (n : Int) : List Char :=
  let isSigned := c.letter = 'd' || c.letter = 'i'
  let numeral := match c.precision with
    | some p =>
      if p = 0 ∧ n = 0 then []
      else Text.padded p (Integer.digits c.base (c.letter = 'X') n.natAbs)
    | none => Integer.digits c.base (c.letter = 'X') n.natAbs
  let numeral :=
    if c.has '#' ∧ c.letter = 'o' ∧ numeral.head? ≠ some '0' then '0' :: numeral else numeral
  let sign := if isSigned then c.sign (n < 0)
    else if c.has '#' ∧ c.base = 16 ∧ n ≠ 0 then ['0', c.letter] else []
  filledNumeral c.left (c.has '0' && c.precision.isNone) c.width sign numeral

/-- A real number as it is converted. -/
def real (e : Real.Exactness) (c : Shape) (r : Real) : List Char :=
  let capital := c.letter.isUpper
  let word := fun s : String => if capital then s.toUpper.toList else s.toList
  let places := c.precision.getD 6
  match r with
  | .undefined => filled c.left c.width (c.sign false ++ word "nan")
  | .infinite negative => filled c.left c.width (c.sign negative ++ word "inf")
  | .finite negative n d =>
    if c.letter.toLower = 'a' then
      filledNumeral c.left (c.has '0') c.width
        (c.sign negative ++ ['0', if capital then 'X' else 'x'])
        (Real.hexadecimal e c.precision (c.has '#') capital n d)
    else
    let numeral :=
      if c.letter = 'f' ∨ c.letter = 'F' then Real.fixed places (c.has '#') n d
      else if c.letter = 'e' ∨ c.letter = 'E' then
        Real.exponential places (c.has '#') capital n d
      else Real.general places (c.has '#') capital n d
    filledNumeral c.left (c.has '0') c.width (c.sign negative) numeral

end Shape

/-! ## Running a format -/

/-- Printing in a format at work. -/
structure Work where
  /-- The arguments that are left. -/
  arguments : List ByteText
  /-- What is printed, the last part first. -/
  printed : List (List Char) := []
  /-- What went wrong, the last fault first. -/
  faults : List FormatFault := []
  /-- Whether an argument was taken. -/
  used : Bool := false
  stopped : Bool := false
  /-- Whether an escape ended the printing, so that faults do not count. -/
  isQuit : Bool := false
deriving DecidableEq, Repr

namespace Work

/-- Print bytes. -/
def print (w : Work) (bytes : List Char) : Work := { w with printed := bytes :: w.printed }

/-- Take an argument; there is always an empty one. -/
def take (w : Work) : List Char × Work :=
  ((w.arguments.head?.getD "").toList,
    { w with arguments := w.arguments.tail, used := w.used || !w.arguments.isEmpty })

/-- Note what is wrong with the number in an argument. -/
def blame (w : Work) (argument : List Char) : Option NumberFault → Work
  | some fault => { w with faults := .number fault (String.ofList argument) :: w.faults }
  | none => w

/-- End all printing, perhaps because of a fault. -/
def stop (w : Work) : Option EscapeFault → Work
  | some fault => { w with faults := .escape fault :: w.faults, stopped := true }
  | none => { w with stopped := true, isQuit := true }

/-- Note that a conversion means nothing, which ends all printing. -/
def refuse (w : Work) (c : Conversion) : Work :=
  { w with faults := .unknown (String.ofList c.source) :: w.faults, stopped := true }

/-- Take an argument as a signed number. -/
def takeInteger (r : FormatRules) (w : Work) : Int × Work :=
  let (argument, w) := w.take
  let n := Integer.signed r.isStrict argument
  (n.value, w.blame argument n.fault)

/-- The number of the values that thirty-two bits hold. -/
def halfWords : Nat := Nat.pow 2 32

/-- A width or a number of places with the arguments it takes.  What does not fit thirty-two
bits ends all printing with a fault, or is cut to them. -/
def extent (r : FormatRules) (w : Work) (fault : ByteText → FormatFault) (most : Int → Bool) :
    Extent → Option Int × Work
  | .absent => (none, w)
  | .given n => (some n, w)
  | .argument =>
    let argument := w.arguments.head?.getD ""
    let (n, w) := w.takeInteger r
    if !r.isStrict then (some (n.bmod halfWords), w)
    else if most n then (some n, w)
    else (none, { w with faults := fault argument :: w.faults, stopped := true })

/-- The largest width and the largest number of places that are followed. -/
def extentLimit : Nat := 4194304

/-- The shape of a conversion with the arguments it takes.  A negative width puts the text to
the left, and a negative number of places counts as none. -/
def shape (r : FormatRules) (w : Work) (c : Conversion) : Shape × Work :=
  let fits := fun n : Int => n = n.bmod halfWords
  let (width, w) := w.extent r .width fits c.width
  let (precision, w) :=
    if w.stopped then (none, w)
    else w.extent r .precision (fun n => n < 0 || fits n) c.precision
  (⟨c.flags, min (width.getD 0).natAbs extentLimit, c.flags.contains '-' || (width.getD 0) < 0,
    precision.bind fun p => if p < 0 then none else some (min p.toNat extentLimit), c.letter⟩,
    w)

/-- Convert an argument. -/
def convert (r : FormatRules) (w : Work) (c : Conversion) : Work :=
  let (shape, w) := w.shape r c
  if w.stopped then w
  else if !r.accepts c then w.refuse c
  else if c.letter = 's' then
    let (argument, w) := w.take
    w.print (shape.text argument)
  else if c.letter = 'b' then
    let (argument, w) := w.take
    let printed := r.textEscapes.apply argument
    let w := w.print (shape.text printed.bytes)
    if printed.stopped then w.stop printed.fault else w
  else if c.letter = 'q' ∧ r.isStrict then
    let (argument, rest) := w.take
    if w.arguments.isEmpty then w else rest.print (shellName (String.ofList argument)).toList
  else if c.letter = 'c' then
    let (argument, w) := w.take
    w.print (filled shape.left shape.width [argument.head?.getD '\x00'])
  else if c.letter = 'd' ∨ c.letter = 'i' then
    let (n, w) := w.takeInteger r
    w.print (shape.integer n)
  else if ['o', 'u', 'x', 'X'].contains c.letter then
    let (argument, w) := w.take
    let n := Integer.unsigned r.isStrict argument
    (w.blame argument n.fault).print (shape.integer n.value)
  else if ['a', 'e', 'f', 'g'].contains c.letter.toLower then
    let (argument, w) := w.take
    let n := Real.read r.reals r.isStrict argument
    (w.blame argument n.fault).print (shape.real r.reals n.value)
  else w.refuse c

/-- Follow a directive unless printing has ended. -/
def step (r : FormatRules) (w : Work) (d : Directive) : Work :=
  if w.stopped then w
  else
    match d with
    | .plain bytes => w.print bytes
    | .stop fault => w.stop fault
    | .convert c => w.convert r c
    | .cut source => { w with faults := .cut (String.ofList source) :: w.faults, stopped := true }

end Work

/-- Use directives again as long as they take arguments and some are left. -/
def rounds (r : FormatRules) (directives : List Directive) : (budget : Nat) → Work → Work
  | 0, w => w
  | budget + 1, w =>
    let w := directives.foldl (Work.step r) { w with used := false }
    if w.used ∧ ¬w.stopped ∧ ¬w.arguments.isEmpty then rounds r directives budget w else w

/-- Print arguments in a format. -/
def run (r : FormatRules) (format : ByteText) (arguments : List ByteText) : Work :=
  rounds r (directives r format.toList) (arguments.length + 1) { arguments }

/-- What was printed. -/
def Work.text (w : Work) : ByteText := String.ofList w.printed.reverse.flatten

theorem foldl_step_plain (r : FormatRules) (parts : List (List Char)) (w : Work)
    (h : w.stopped = false) :
    (parts.map .plain).foldl (Work.step r) w =
      { w with printed := parts.reverse ++ w.printed } := by
  induction parts generalizing w with
  | nil => rfl
  | cons p parts ih =>
    rw [List.map_cons, List.foldl_cons, Work.step, h]
    simp only [Bool.false_eq_true, if_false]
    rw [ih (w.print p) h]
    simp [Work.print, h]

/-- A format without conversions prints its own bytes, once. -/
theorem run_plain {r : FormatRules} {format : ByteText} {parts : List (List Char)}
    (h : directives r format.toList = parts.map .plain) (arguments : List ByteText) :
    (run r format arguments).text = String.ofList parts.flatten := by
  unfold run
  rw [h]
  simp only [rounds]
  rw [foldl_step_plain _ _ _ rfl]
  simp [Work.text]

end Format

/-! ## The messages -/

/-- What a shell says about a fault. -/
def FormatFault.shellMessage : FormatFault → Option ByteText
  | .number .missing argument => some (argument ++ ": expected numeric value")
  | .number .trailing argument => some (argument ++ ": not completely converted")
  | .number .outOfRange argument => some (argument ++ ": Numerical result out of range")
  | .number (.ignored _) _ => none
  | .cut _ => some "missing format character"
  | .unknown source => some (source ++ ": invalid directive")
  | .excess _ => none
  | .escape _ => none
  | .width _ => none
  | .precision _ => none

/-- What a program says about a fault. -/
def FormatFault.programMessage : FormatFault → ByteText
  | .number .missing argument => quoted argument ++ ": expected a numeric value"
  | .number .trailing argument => quoted argument ++ ": value not completely converted"
  | .number .outOfRange argument => quoted argument ++ ": Numerical result out of range"
  | .number (.ignored rest) _ =>
    "warning: " ++ String.ofList rest ++
      ": character(s) following character constant have been ignored"
  | .cut source => source ++ ": invalid conversion specification"
  | .unknown source => source ++ ": invalid conversion specification"
  | .excess argument =>
    "warning: ignoring excess arguments, starting with " ++ quoted argument
  | .width argument => "invalid field width: " ++ quoted argument
  | .precision argument => "invalid precision: " ++ quoted argument
  | .escape .missingDigits => "missing hexadecimal number in escape"
  | .escape (.noCharacter source) =>
    "invalid universal character name " ++ String.ofList source

/-- Whether a fault makes the printing fail. -/
def FormatFault.fails : FormatFault → Bool
  | .excess _ => false
  | .number (.ignored _) _ => false
  | _ => true

/-- The program that prints its arguments in a format. -/
def programPrintf (arguments : List ByteText) : Process :=
  let arguments := if arguments.head? = some "--" then arguments.tail else arguments
  match arguments with
  | [] => .failing 1 "printf: missing operand\nTry 'printf --help' for more information."
  | format :: arguments =>
    let w := Format.run .program format arguments
    let excess := match w.arguments with
      | first :: _ => if w.stopped then [] else [FormatFault.excess first]
      | [] => []
    let faults := w.faults.reverse ++ excess
    { ending := .exited (if faults.any FormatFault.fails ∧ ¬w.isQuit then 1 else 0)
      stdout := w.text
      stderr := .unlines (faults.map fun f => "printf: " ++ f.programMessage) }

end PhasedInduction.Host
