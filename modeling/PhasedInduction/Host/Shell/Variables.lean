import PhasedInduction.Host.Shell.Redirection

/-!
# Commands about variables and parameters

The commands of a shell that set, show and take away variables, parameters and options, and
those that fill variables from a line of input or from options among the parameters.
-/

namespace PhasedInduction.Host.Shell

/-! ## Numbers and names -/

/-- The number of a word of digits, as far as a shell counts. -/
def number? (word : ByteText) : Option Nat :=
  let digits := word.toList
  if digits.isEmpty || !digits.all Text.isDecimal then none
  else if Text.decimalValue digits ≤ 2147483647 then some (Text.decimalValue digits) else none

/-- The message about a word that is no number. -/
def illegalNumber (word : ByteText) : ByteText := "Illegal number: " ++ word

/-- The name in front of an equals sign, with the value behind it if there is one. -/
def splitAssignment (word : ByteText) : ByteText × Option ByteText :=
  match Text.cut '=' word.toList with
  | some (name, value) => (String.ofList name, some (String.ofList value))
  | none => (word, none)

/-- A value between single quotes, as it can be read again. -/
def singleQuoted (value : ByteText) : ByteText :=
  let parts := Text.pieces '\'' value.toList
  Text.joined "\"'\"" (parts.map fun p => "'" ++ String.ofList p ++ "'")

/-! ## Parameters and options -/

/-- Drop the first parameters. -/
def shiftCommand (arguments : List ByteText) (s : Shell) : Shell :=
  match arguments.head? with
  | none =>
    if s.parameters.isEmpty then s.abort "can't shift that many"
    else { s with parameters := s.parameters.drop 1, status := 0 }
  | some word =>
    match number? word with
    | none => s.abort (illegalNumber word)
    | some n =>
      if s.parameters.length < n then s.abort "can't shift that many"
      else { s with parameters := s.parameters.drop n, status := 0 }

/-- The options of a shell by their long names. -/
def optionNames : List (ByteText × Char) :=
  [("errexit", 'e'), ("noglob", 'f'), ("ignoreeof", 'I'), ("interactive", 'i'), ("monitor", 'm'),
    ("noexec", 'n'), ("stdin", 's'), ("xtrace", 'x'), ("verbose", 'v'), ("vi", 'V'),
    ("emacs", 'E'), ("noclobber", 'C'), ("allexport", 'a'), ("notify", 'b'), ("nounset", 'u')]

/-- The shell with an option set or not. -/
def setOption (s : Shell) (option : Char) (on : Bool) : Shell :=
  let others := s.options.filter (· ≠ option)
  { s with options := if on then option :: others else others }

/-- Set the options of letters; there may be one that is not known. -/
def setLetters (on : Bool) : List Char → Shell → Except Char Shell
  | [], s => .ok s
  | c :: letters, s =>
    if optionLetters.contains c then setLetters on letters (s.setOption c on) else .error c

/-- Set options from the words at the start.  What is left are the parameters, if there are
any or two hyphens ask for them. -/
def setOptions (budget : Nat) (words : List ByteText) (s : Shell) :
    Except ByteText (Option (List ByteText) × Shell) :=
  match budget, words with
  | 0, words => .ok (if words.isEmpty then none else some words, s)
  | _, [] => .ok (none, s)
  | budget + 1, word :: rest =>
    match word.toList, rest with
    | ['-', '-'], rest => .ok (some rest, s)
    | ['-'], rest => .ok (if rest.isEmpty then none else some rest, s)
    | [sign, 'o'], name :: rest =>
      if sign = '-' ∨ sign = '+' then
        match optionNames.lookup name with
        | some c => setOptions budget rest (s.setOption c (sign = '-'))
        | none => .error ("Illegal option " ++ String.ofList [sign] ++ "o " ++ name)
      else .ok (some words, s)
    | sign :: letters, rest =>
      if (sign = '-' ∨ sign = '+') ∧ letters ≠ [] then
        match setLetters (sign = '-') letters s with
        | .ok s => setOptions budget rest s
        | .error c => .error ("Illegal option " ++ String.ofList [sign, c])
      else .ok (some words, s)
    | [], _ => .ok (some words, s)

/-- The options by name, with whether each is set; the last ones have no letter. -/
def optionStates (s : Shell) : List (ByteText × Bool) :=
  (optionNames.map fun (name, c) => (name, s.has c)) ++
    ["privileged", "nolog", "debug"].map fun name => (name, false)

/-- Show the options as a table, or as commands that set them. -/
def showOptions (asTable : Bool) (s : Shell) : Shell :=
  let row := fun ((name, on) : ByteText × Bool) =>
    if asTable then
      name ++ String.ofList (List.replicate (16 - name.length) ' ') ++ (if on then "on" else "off")
    else "set " ++ (if on then "-" else "+") ++ "o " ++ name
  let title := if asTable then ["Current option settings"] else []
  (s.print 1 (.unlines (title ++ s.optionStates.map row))).withStatus 0

/-- Set options and parameters, or show all variables. -/
def setCommand (arguments : List ByteText) (s : Shell) : Shell :=
  match arguments with
  | ["-o"] => s.showOptions true
  | ["+o"] => s.showOptions false
  | [] =>
    let entries := s.bindings.filterMap fun (name, v) =>
      v.value.map fun value => name ++ "=" ++ singleQuoted value
    (s.print 1 (.unlines (entries.mergeSort fun a b => !decide (b < a)))).withStatus 0
  | words =>
    match setOptions words.length words s with
    | .error message => s.abort message
    | .ok (some parameters, s) => { s with parameters, status := 0 }
    | .ok (none, s) => s.withStatus 0

/-! ## Variables -/

/-- Change a variable that a word names, and set its value if the word gives one. -/
def declare (change : ShellVariable → ShellVariable) (word : ByteText) (s : Shell) : Shell :=
  let (name, value) := splitAssignment word
  if s.isStopped then s
  else if ¬ScriptRules.isName name.toList then s.abort (name ++ ": bad variable name")
  else
    let s := match value with
      | some value => s.assign name value
      | none => s
    if s.isStopped then s
    else s.setVariable name (change ((s.entry? name).getD {}))

/-- Change the variables that words name, or show those that are as a test says. -/
def declareCommand (command : ByteText) (test : ShellVariable → Bool)
    (change : ShellVariable → ShellVariable) (arguments : List ByteText) (s : Shell) : Shell :=
  match arguments with
  | [] | ["-p"] =>
    let entries := s.bindings.filterMap fun (name, v) =>
      if test v then
        some (command ++ " " ++ name ++ (match v.value with
          | some value => "=" ++ singleQuoted value
          | none => ""))
      else none
    (s.print 1 (.unlines (entries.mergeSort fun a b => !decide (b < a)))).withStatus 0
  | words => words.foldl (fun s word => declare change word s) (s.withStatus 0)

/-- Give the function at work variables of its own. -/
def localCommand (arguments : List ByteText) (s : Shell) : Shell :=
  arguments.foldl (fun s word =>
    if s.isStopped then s
    else
      match s.saved with
      | [] => s.abort "not in a function"
      | frame :: frames =>
        let (name, value) := splitAssignment word
        if ¬ScriptRules.isName name.toList then s.abort (name ++ ": bad variable name")
        else
          let known := frame.any fun e => e.1 = name
          let s := { s with
            saved := (if known then frame else (name, s.entry? name) :: frame) :: frames }
          match value with
          | some value => s.assign name value
          | none => s) (s.withStatus 0)

/-- Put variables back to what they were. -/
def restore (entries : List (ByteText × Option ShellVariable)) (s : Shell) : Shell :=
  entries.foldl (fun s (name, old) =>
    match old with
    | some v => s.setVariable name v
    | none => s.dropVariable name) s

/-- Take away variables or functions. -/
def unsetCommand (arguments : List ByteText) (s : Shell) : Shell :=
  let functions := arguments.head? = some "-f"
  let names := if functions ∨ arguments.head? = some "-v" then arguments.tail else arguments
  names.foldl (fun s name =>
    if s.isStopped then s
    else if functions then { s with functions := s.functions.filter fun f => f.1 ≠ name }
    else if s.isReadOnly name then s.abort (name ++ ": is read only")
    else s.dropVariable name) (s.withStatus 0)

/-! ## Input -/

/-- A line of input, each character with whether a backslash protects it, with what is left
and whether the line had an end.  Without protection a backslash before a line end joins two
lines. -/
def inputLine (raw : Bool) : List Char → List (Char × Bool) × List Char × Bool
  | [] => ([], [], false)
  | '\n' :: s => ([], s, true)
  | '\\' :: s =>
    if raw then
      let (line, rest, ended) := inputLine raw s
      (('\\', false) :: line, rest, ended)
    else
      match s with
      | [] => ([], [], false)
      | '\n' :: s => inputLine raw s
      | c :: s =>
        let (line, rest, ended) := inputLine raw s
        ((c, true) :: line, rest, ended)
  | c :: s =>
    let (line, rest, ended) := inputLine raw s
    ((c, false) :: line, rest, ended)

/-- Whether a character of a line separates words. -/
def separates (separators : Separators) (p : Char × Bool) : Bool :=
  !p.2 && separators.contains p.1

/-- Whether a character of a line is a blank between words. -/
def isGap (separators : Separators) (p : Char × Bool) : Bool :=
  separates separators p && isBlankSeparator p.1

/-- A line without blanks at its end, and without the one separator there if no other is left
in it. -/
def lastInput (separators : Separators) (line : List (Char × Bool)) : List (Char × Bool) :=
  let trimmed := line.reverse.dropWhile (isGap separators)
  match trimmed with
  | p :: rest =>
    if separates separators p ∧ ¬rest.any (separates separators) then rest.reverse
    else trimmed.reverse
  | [] => []

/-- The words of a line for so many variables; the last one takes all that is left. -/
def cutInput (separators : Separators) : (count : Nat) → List (Char × Bool) →
    List (List (Char × Bool))
  | 0, _ => []
  | 1, line => [lastInput separators (line.dropWhile (isGap separators))]
  | count + 2, line =>
    let line := line.dropWhile (isGap separators)
    let word := line.takeWhile fun p => !separates separators p
    let rest := (line.drop word.length).dropWhile (isGap separators)
    let rest := match rest with
      | p :: more =>
        if separates separators p ∧ ¬isBlankSeparator p.1 then more else rest
      | [] => []
    word :: cutInput separators (count + 1) rest

/-- Fill variables from a line of input. -/
def readCommand (arguments : List ByteText) (s : Shell) : Shell :=
  let raw := arguments.head? = some "-r"
  let names := if raw then arguments.tail else arguments
  let names := match names with
    | "-p" :: _ :: names => names
    | names => names
  if names.isEmpty then s.complain "arg count"
  else
    let (line, rest, ended) := inputLine raw (s.readable 0)
    let s := s.leaveToRead 0 rest
    let words := cutInput s.separators names.length (line.filter fun c => c.1 ≠ '\x00')
    let s := (names.zip words).foldl (fun s (name, word) =>
      if s.isStopped then s
      else if ¬ScriptRules.isName name.toList then s.complain (name ++ ": bad variable name")
      else s.assign name (String.ofList (word.map Prod.fst))) (s.withStatus 0)
    if s.isStopped ∨ s.status ≠ 0 then s else s.withStatus (if ended then 0 else 1)

/-! ## Options among parameters -/

/-- The number of the parameter whose options are read next. -/
def optionIndex (s : Shell) : Nat := ((s.value? "OPTIND").bind number?).getD 1

/-- The shell that goes on reading options at a place. -/
def withOptionPlace (s : Shell) (index offset : Nat) : Shell :=
  { s.setValue "OPTIND" (toString index) with optionOffset := offset }

/-- Read the next option of some words: its letter goes to one variable, what belongs to it to
another. -/
def getoptsCommand (arguments : List ByteText) (s : Shell) : Shell :=
  match arguments with
  | letters :: name :: given =>
    let words := if given.isEmpty then s.parameters else given
    let index := s.optionIndex
    let word := (words[index - 1]?.getD "").toList
    let offset := if s.optionOffset = 0 then 1 else s.optionOffset
    let ends := fun (s : Shell) (index : Nat) =>
      ((s.withOptionPlace index 0).setValue name "?").withStatus 1
    if index = 0 ∨ words.length < index ∨ word.head? ≠ some '-' ∨ word.length < 2 then
      ends s index
    else if word = ['-', '-'] then ends s (index + 1)
    else
      let letter := word[offset]?.getD ' '
      let isLast := word.length ≤ offset + 1
      let quiet := letters.toList.head? = some ':'
      let after := letters.toList.dropWhile (· ≠ letter)
      let s := s.withStatus 0
      let next := fun (s : Shell) =>
        if isLast then s.withOptionPlace (index + 1) 0 else s.withOptionPlace index (offset + 1)
      if letter = ':' ∨ after.isEmpty then
        let s := (next s).setValue name "?"
        if quiet then s.setValue "OPTARG" (String.ofList [letter])
        else (s.dropVariable "OPTARG").print 2
          ("Illegal option -" ++ String.ofList [letter] ++ "\n")
      else if after.tail.head? = some ':' then
        let inside := word.drop (offset + 1)
        match inside, words[index]? with
        | [], none =>
          let s := s.withOptionPlace (index + 1) 0
          if quiet then
            (s.setValue name ":").setValue "OPTARG" (String.ofList [letter])
          else ((s.setValue name "?").dropVariable "OPTARG").print 2
            ("No arg for -" ++ String.ofList [letter] ++ " option\n")
        | [], some value =>
          ((s.withOptionPlace (index + 2) 0).setValue name (String.ofList [letter])).setValue
            "OPTARG" value
        | inside, _ =>
          ((s.withOptionPlace (index + 1) 0).setValue name (String.ofList [letter])).setValue
            "OPTARG" (String.ofList inside)
      else ((next s).setValue name (String.ofList [letter])).setValue "OPTARG" ""
  | _ => s.complain "Usage: getopts optstring var [arg...]"

end PhasedInduction.Host.Shell
