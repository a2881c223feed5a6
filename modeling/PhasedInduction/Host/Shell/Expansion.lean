import PhasedInduction.Host.Glob
import PhasedInduction.Host.Shell.Basic

/-!
# Expansion of words

A word of a script becomes any number of words of a command.  Parameters, outputs of commands
and arithmetic are replaced first; what they leave is cut at separating characters unless it
is quoted; and a word with the signs of a pattern becomes the paths that fit.

Main results:

- Theorem {lit}`fieldsOf_plain`: characters of the script are never cut.
- Theorem {lit}`fieldsOf_quoted`: a quoted text is one word, even without characters.
- Theorem {lit}`fieldsOf_value`: a value without separators is one word if it is not empty.
-/

namespace PhasedInduction.Host

/-! ## Parts and words -/

namespace WordPart

/-- The character of a part. -/
def char? : WordPart → Option Char
  | quoted c | plain c | value c => some c
  | mark => none
  | gap => some ' '

/-- The text of parts. -/
def text (parts : List WordPart) : ByteText := String.ofList (parts.filterMap char?)

/-- The characters of parts, each with whether it may be a sign of a pattern. -/
def pattern (parts : List WordPart) : List (Char × Bool) :=
  parts.filterMap fun
    | quoted c => some (c, false)
    | plain c | value c => some (c, true)
    | mark => none
    | gap => some (' ', false)

/-- The parts of a text between quotes. -/
def ofQuoted (s : ByteText) : List WordPart := .mark :: s.toList.map .quoted

/-- The parts of a value. -/
def ofValue (quoted : Bool) (s : ByteText) : List WordPart :=
  if quoted then ofQuoted s else s.toList.map .value

/-- A part of a word that stands in place of a value. -/
def asValue : WordPart → WordPart
  | plain c => value c
  | p => p

/-- Parts of several words with gaps between them. -/
def separated : List (List WordPart) → List WordPart
  | [] => []
  | [parts] => parts
  | parts :: more => parts ++ .gap :: separated more

end WordPart

/-- A word in the making: its characters, each with whether it may be a sign of a pattern. -/
abbrev Field := List (Char × Bool)

/-- The separating characters; some of them are blank. -/
abbrev Separators := List Char

/-- Whether a character is a blank separator. -/
def isBlankSeparator (c : Char) : Bool := c = ' ' || c = '\t' || c = '\n'

/-- The words that parts make up.  The word at work is given backwards if there is one, and
whether blanks have just ended one: another separator behind them ends the same word. -/
def fieldsFrom (separators : Separators) (current : Option Field) (ended : Bool) :
    List WordPart → List Field
  | [] => (current.map List.reverse).toList
  | .quoted c :: rest => fieldsFrom separators (some ((c, false) :: current.getD [])) false rest
  | .plain c :: rest => fieldsFrom separators (some ((c, true) :: current.getD [])) false rest
  | .mark :: rest => fieldsFrom separators (some (current.getD [])) false rest
  | .gap :: rest => (current.map List.reverse).toList ++ fieldsFrom separators none false rest
  | .value c :: rest =>
    if ¬separators.contains c then
      fieldsFrom separators (some ((c, true) :: current.getD [])) false rest
    else if isBlankSeparator c then
      (current.map List.reverse).toList ++
        fieldsFrom separators none (ended || current.isSome) rest
    else
      match current with
      | some field => field.reverse :: fieldsFrom separators none false rest
      | none =>
        if ended then fieldsFrom separators none false rest
        else [] :: fieldsFrom separators none false rest

/-- The words that parts make up. -/
def fieldsOf (separators : Separators) (parts : List WordPart) : List Field :=
  fieldsFrom separators none false parts

theorem fieldsFrom_some_map (separators : Separators) (part : Char → WordPart)
    (active : Bool) (h : ∀ c field ended rest,
      fieldsFrom separators (some field) ended (part c :: rest) =
        fieldsFrom separators (some ((c, active) :: field)) false rest)
    (s : List Char) (field : Field) (ended : Bool) :
    fieldsFrom separators (some field) ended (s.map part) =
      [field.reverse ++ s.map (·, active)] := by
  induction s generalizing field ended with
  | nil => simp [fieldsFrom]
  | cons c s ih => simp [h, ih]

/-- Characters of the script are never cut. -/
theorem fieldsOf_plain (separators : Separators) (c : Char) (s : List Char) :
    fieldsOf separators ((c :: s).map .plain) = [(c :: s).map (·, true)] := by
  simp only [fieldsOf, List.map_cons, fieldsFrom, Option.getD_none]
  rw [fieldsFrom_some_map _ _ true (by simp [fieldsFrom])]
  simp

/-- A quoted text is one word, even without characters. -/
theorem fieldsOf_quoted (separators : Separators) (s : ByteText) :
    fieldsOf separators (WordPart.ofQuoted s) = [s.toList.map (·, false)] := by
  simp only [fieldsOf, WordPart.ofQuoted, fieldsFrom, Option.getD_none]
  rw [fieldsFrom_some_map _ _ false (by simp [fieldsFrom])]
  simp

/-- A value without separators is one word if it is not empty. -/
theorem fieldsOf_value {s : List Char} (h : s ≠ []) :
    fieldsOf [] (s.map .value) = [s.map (·, true)] := by
  cases s with
  | nil => contradiction
  | cons c s =>
    simp only [fieldsOf, List.map_cons, fieldsFrom, Option.getD_none]
    simp only [List.contains_nil, Bool.false_eq_true, not_false_eq_true, if_true]
    rw [fieldsFrom_some_map _ _ true (by simp [fieldsFrom])]
    simp

/-! ## Paths -/

/-- Whether a word has a sign of a pattern. -/
def Field.isPattern (f : Field) : Bool :=
  f.any fun (c, active) => active && (c = '*' || c = '?' || c = '[')

/-- The text of a word. -/
def Field.text (f : Field) : ByteText := String.ofList (f.map Prod.fst)

/-- The parts of a word between its slashes. -/
def Field.segments (f : Field) : List Field :=
  match f with
  | [] => [[]]
  | (c, active) :: rest =>
    if c = '/' then [] :: segments rest
    else
      match segments rest with
      | [] => [[(c, active)]]
      | first :: more => ((c, active) :: first) :: more

/-- The paths that one part of a pattern makes of a path; the names in a directory that begin
with a dot are for parts that do so too. -/
def pathsAfter (files : FileTree) (isFirst : Bool) (segment : Field)
    (path : ByteText × Location) : List (ByteText × Location) :=
  let start := if isFirst then path.1 else path.1 ++ "/"
  if Field.isPattern segment then
    let isHidden : Bool := segment.head?.map Prod.fst = some '.'
    let names := (namesIn files path.2).filter fun name =>
      (isHidden || name.toList.head? ≠ some '.') &&
        Glob.fits (Glob.read segment) (ByteText.ofText name).toList
    names.map fun name => (start ++ ByteText.ofText name, path.2 ++ [name])
  else
    let text := Field.text segment
    let place := if text = "" ∨ text = "." then path.2
      else if text = ".." then path.2.dropLast else path.2 ++ [text.toText]
    if (files.node? place).isSome then [(start ++ text, place)] else []

/-- The paths that fit a pattern. -/
def pathsOf (files : FileTree) (f : Field) : List ByteText :=
  let (start, rest) := match Field.segments f with
    | [] :: rest => ([("", [])], rest)
    | first :: rest => (pathsAfter files true first ("", files.here), rest)
    | [] => ([], [])
  let found :=
    rest.foldl (fun paths segment => paths.flatMap (pathsAfter files false segment)) start
  (found.map Prod.fst).mergeSort fun a b => !decide (b < a)

namespace Shell

/-! ## Parameters -/

/-- The letters of options in the order in which they are shown. -/
def optionLetters : List Char :=
  ['e', 'f', 'I', 'i', 'm', 'n', 's', 'x', 'v', 'V', 'E', 'C', 'a', 'b', 'u']

/-- The value of a parameter other than the list of all. -/
def lookUp (s : Shell) (name : ByteText) : Option ByteText :=
  match name with
  | "#" => some (toString s.parameters.length)
  | "?" => some (toString s.status)
  | "$" => some (toString s.number)
  | "!" => s.jobs.head?.map fun job => toString job.1
  | "-" => some (String.ofList (optionLetters.filter s.has))
  | "0" => some s.name
  | name =>
    if !name.isEmpty && name.toList.all Text.isDecimal then
      let n := Text.decimalValue name.toList
      if n = 0 then some s.name else s.parameters[n - 1]?
    else s.value? name

/-- The separating characters. -/
def separators (s : Shell) : Separators :=
  match s.value? "IFS" with
  | some value => value.toList
  | none => [' ', '\t', '\n']

/-- What stands between all parameters in one word. -/
def parameterGap (s : Shell) : ByteText := String.ofList (s.separators.take 1)

/-- The parts of all parameters.  Between quotes the one form keeps them apart, and the other
makes one word of them. -/
def listParts (s : Shell) (name : ByteText) (quoted : Bool) (values : List ByteText) :
    List WordPart :=
  if quoted ∧ name = "*" then WordPart.ofQuoted (Text.joined s.parameterGap values)
  else WordPart.separated (values.map (WordPart.ofValue quoted))

/-- The shell with a value for a variable, if it may have one. -/
def assign (s : Shell) (name value : ByteText) : Shell :=
  if s.isReadOnly name then s.abort (name ++ ": is read only") else s.setValue name value

/-! ## The use of parameters -/

/-- The values of a parameter: several for the list of all, and none if it is not set. -/
def valuesOf (s : Shell) (name : ByteText) : Option (List ByteText) :=
  if name = "@" ∨ name = "*" then
    if s.parameters.isEmpty then none else some s.parameters
  else (s.lookUp name).map ([·])

/-- The parts of the values of a parameter. -/
def valueParts (s : Shell) (name : ByteText) (quoted : Bool) (values : List ByteText) :
    List WordPart :=
  if name = "@" ∨ name = "*" then s.listParts name quoted values
  else WordPart.ofValue quoted (Text.joined " " values)

/-- Whether values count as missing. -/
def isMissing (orEmpty : Bool) : Option (List ByteText) → Bool
  | none => true
  | some values => orEmpty && values.all (· = "")

/-- The parts of a word that stands in place of a value. -/
def wordParts (e : Engine) (quoted : Bool) (w : Word) (s : Shell) : List WordPart × Shell :=
  let (parts, s) := e.parts w s
  (if quoted then .mark :: parts else parts.map WordPart.asValue, s)

/-- The message about a parameter without value. -/
def missingMessage (name : ByteText) (orNull : Bool) : ByteText :=
  name ++ ": parameter not set" ++ (if orNull then " or null" else "")

/-- The parts of a parameter that has no value. -/
def absentParts (name : ByteText) (quoted : Bool) (s : Shell) : List WordPart × Shell :=
  if s.has 'u' ∧ name ≠ "@" ∧ name ≠ "*" then ([], s.abort (missingMessage name false))
  else (s.valueParts name quoted (if name = "@" ∨ name = "*" then [] else [""]), s)

/-- The values of a parameter with each cut at one of its ends. -/
def cutValues (e : Engine) (w : Word) (values : List ByteText)
    (cut : Glob → List Char → List Char) (s : Shell) : List ByteText × Shell :=
  let (parts, s) := e.parts w s
  let pattern := Glob.read (WordPart.pattern parts)
  (values.map fun value => String.ofList (cut pattern value.toList), s)

/-- The parts of a parameter as it is used. -/
def parameterParts (e : Engine) (name : ByteText) (quoted : Bool) (use : ParameterUse) (w : Word)
    (s : Shell) : List WordPart × Shell :=
  let values := s.valuesOf name
  let present := fun (s : Shell) =>
    match values with
    | some values => (s.valueParts name quoted values, s)
    | none => absentParts name quoted s
  match use with
  | .senseless => ([], s.abort "Bad substitution")
  | .value => present s
  | .length =>
    match values with
    | some values =>
      let all := Text.joined (if name = "*" then s.parameterGap else " ") values
      (WordPart.ofValue quoted (toString all.length), s)
    | none =>
      if s.has 'u' ∧ name ≠ "@" ∧ name ≠ "*" then ([], s.abort (missingMessage name false))
      else (WordPart.ofValue quoted "0", s)
  | .default orEmpty => if isMissing orEmpty values then wordParts e quoted w s else present s
  | .alternative orEmpty =>
    if isMissing orEmpty values then (if quoted then [.mark] else [], s)
    else wordParts e quoted w s
  | .assign orEmpty =>
    if ¬isMissing orEmpty values then present s
    else if ¬ScriptRules.isName name.toList then ([], s.abort (name ++ ": bad variable name"))
    else
      let (parts, s) := e.parts w s
      let value := WordPart.text parts
      (WordPart.ofValue quoted value, if s.isStopped then s else s.assign name value)
  | .demand orEmpty =>
    if ¬isMissing orEmpty values then present s
    else
      let (parts, s) := e.parts w s
      let message := WordPart.text parts
      if s.isStopped then ([], s)
      else if w.isEmpty then ([], s.abort (missingMessage name orEmpty))
      else ([], s.abort (name ++ ": " ++ message))
  | .cutFront longest =>
    match values with
    | none => absentParts name quoted s
    | some values =>
      let (values, s) := cutValues e w values (fun p => p.cutFront longest) s
      (s.valueParts name quoted values, s)
  | .cutBack longest =>
    match values with
    | none => absentParts name quoted s
    | some values =>
      let (values, s) := cutValues e w values (fun p => p.cutBack longest) s
      (s.valueParts name quoted values, s)

/-! ## Outputs and arithmetic -/

/-- A text without the line ends at its end. -/
def withoutLineEnds (t : ByteText) : ByteText :=
  String.ofList ((t.toList.filter (· ≠ '\x00')).reverse.dropWhile (· = '\n')).reverse

/-- The output of a command that runs in a shell of its own. -/
def output (e : Engine) (body : ScriptCommand) (s : Shell) : ByteText × Shell :=
  let descriptors := s.descriptors
  let (n, s) := s.newSink
  let status := s.status
  let s := e.inside {} body (s.direct 1 (some (.sink n)))
  (withoutLineEnds (s.written n),
    { s with descriptors, outputStatus := s.status, status })

/-- The value of an arithmetic text, with the variables that it sets. -/
def arithmetic (text : ByteText) (s : Shell) : ByteText × Shell :=
  match Arithmetic.value s.lookUp text.toList with
  | .error fault => ("", s.abort (fault.message text))
  | .ok (n, settings) =>
    (toString n, settings.foldl (fun s (name, n) => s.assign name (toString n)) s)

/-! ## Words -/

/-- The parts of a piece. -/
def pieceParts (e : Engine) (p : Piece) (s : Shell) : List WordPart × Shell :=
  if s.isStopped then ([], s)
  else
    match p with
    | .char c true => ([.quoted c], s)
    | .char c false => ([.plain c], s)
    | .mark => ([.mark], s)
    | .parameter name quoted use w => parameterParts e name quoted use w s
    | .output body quoted =>
      let (text, s) := output e body s
      (WordPart.ofValue quoted text, s)
    | .arithmetic expression quoted =>
      let (parts, s) := e.parts expression s
      if s.isStopped then ([], s)
      else
        let (text, s) := arithmetic (WordPart.text parts) s
        (WordPart.ofValue quoted text, s)

/-- The parts of a word, piece by piece. -/
def partsOf (e : Engine) (w : Word) (s : Shell) : List WordPart × Shell :=
  match w with
  | [] => ([], s)
  | p :: w =>
    let (first, s) := pieceParts e p s
    let (more, s) := partsOf e w s
    (first ++ more, s)

/-- A word with the home directory in place of a tilde at its start. -/
def withHome (s : Shell) (w : Word) : Word :=
  match w, s.value? "HOME" with
  | [.char '~' false], some home => Piece.chars true home.toList
  | [.char '~' false, .char 'r' false, .char 'o' false, .char 'o' false, .char 't' false], _ =>
    Piece.chars true "/root".toList
  | .char '~' false :: .char '/' false :: rest, some home =>
    Piece.chars true home.toList ++ .char '/' false :: rest
  | w, _ => w

/-- The text of a word that is not cut. -/
def expandText (e : Engine) (w : Word) (s : Shell) : ByteText × Shell :=
  let (parts, s) := partsOf e (s.withHome w) s
  (WordPart.text parts, s)

/-- The pattern of a word. -/
def expandPattern (e : Engine) (w : Word) (s : Shell) : Glob × Shell :=
  let (parts, s) := partsOf e (s.withHome w) s
  (Glob.read (WordPart.pattern parts), s)

/-- The words that a field stands for: the paths that fit it, or its text. -/
def fieldWords (s : Shell) (f : Field) : List ByteText :=
  if f.isPattern ∧ ¬s.has 'f' then
    match pathsOf s.files f with
    | [] => [f.text]
    | paths => paths
  else [f.text]

/-- The words of a command that a word stands for. -/
def expandWord (e : Engine) (w : Word) (s : Shell) : List ByteText × Shell :=
  let (parts, s) := partsOf e (s.withHome w) s
  ((fieldsOf s.separators parts).flatMap s.fieldWords, s)

/-- The words of a command that words stand for. -/
def expandWords (e : Engine) (words : List Word) (s : Shell) : List ByteText × Shell :=
  words.foldl (fun (done, s) w =>
    let (more, s) := expandWord e w s
    (done ++ more, s)) ([], s)

end Shell

end PhasedInduction.Host
