import PhasedInduction.Host.Search
import PhasedInduction.Host.Utility.Names

/-!
# Programs that start programs

Programs that start another one with other variables, with arguments out of their input, or
under conditions that do not show in what it does.

Main results:

- Theorem {lit}`batches_flatten`: the arguments of all batches are the arguments given.
-/

namespace PhasedInduction.Host

/-- How a program that is known by name is started. -/
abbrev Start := (program : String) → Invocation → Process

/-- The program that a word names in the surroundings of a process. -/
def programFor (i : Invocation) (name : ByteText) : Except FileError String :=
  let path := (i.environment.lookup "PATH").getD "/bin:/usr/bin"
  (resolve i.files (searchDirectories path.toText) name.toText).map Prod.snd

/-- Start the program that a word names, in place of the process. -/
def launch (start : Start) (failed : FileError → Process) (name : ByteText) (i : Invocation) :
    Process :=
  match programFor i name with
  | .ok program => start program i
  | .error e => failed e

/-- The status of a program that could not start another one. -/
def launchStatus : FileError → UInt8
  | .notFound => 127
  | _ => 126

/-- The failure to start a program. -/
def launchFailure (message : ByteText) (e : FileError) : Process :=
  .failing (launchStatus e) (message ++ ": " ++ errorText e)

/-- Show where the programs of names are. -/
def whichProgram (i : Invocation) : Process :=
  let names := i.arguments.filter fun a => a.toList.head? ≠ some '-'
  let directories := searchDirectories ((i.environment.lookup "PATH").getD "/bin:/usr/bin").toText
  let found := names.filterMap fun name => (resolve i.files directories name.toText).toOption
  { ending := .exited (if found.length = names.length ∧ ¬names.isEmpty then 0 else 1)
    stdout := .unlines (found.map fun (path, _) => ByteText.ofText path) }

/-! ## Other variables -/

/-- The settings in front of a command, and the command. -/
def settings : List ByteText → List (ByteText × ByteText) × List ByteText
  | [] => ([], [])
  | word :: rest =>
    match Text.cut '=' word.toList with
    | none => ([], word :: rest)
    | some (name, value) =>
      let (more, command) := settings rest
      ((String.ofList name, String.ofList value) :: more, command)

/-- The variables with one set; a new one stands last. -/
def withSetting (environment : List (ByteText × ByteText)) (s : ByteText × ByteText) :
    List (ByteText × ByteText) :=
  if (environment.lookup s.1).isSome then
    environment.map fun v => if v.1 = s.1 then s else v
  else environment ++ [s]

/-- Show the variables, or start a program with others. -/
def envProgram (start : Start) (i : Invocation) : Process :=
  let rules : OptionRules :=
    { name := "env", status := 125, flags := ['0', 'i', 'v'], valued := ['u'], mixes := false
      long := [("ignore-environment", 'i'), ("null", '0'), ("unset", 'u'), ("debug", 'v')] }
  rules.run i.arguments fun o =>
    let (isAlone, words) := match o.operands with
      | "-" :: rest => (true, rest)
      | words => (false, words)
    let dropped := o.options.filterMap fun (c, name) => if c = 'u' then some name else none
    let kept := if isAlone ∨ o.has 'i' then []
      else i.environment.filter fun v => !dropped.contains v.1
    let (set, command) := settings words
    let environment := set.foldl withSetting kept
    match command with
    | [] =>
      let stop := if o.has '0' then "\x00" else "\n"
      .saying (String.join (environment.map fun (name, value) => name ++ "=" ++ value ++ stop))
    | name :: arguments =>
      let hint := if name.toList.contains ' ' then
        "\nenv: use -[v]S to pass options in shebang lines" else ""
      let failed := fun e =>
        Process.failing (launchStatus e) ("env: " ++ quoted name ++ ": " ++ errorText e ++
          (if e = .notFound then hint else ""))
      launch start failed name { i with arguments, environment }

/-! ## Other conditions -/

/-- Start a program that goes on without a terminal. -/
def nohupProgram (start : Start) (i : Invocation) : Process :=
  let rules : OptionRules := { name := "nohup", status := 125, mixes := false }
  rules.run i.arguments fun o =>
    match o.operands with
    | [] => hinted "nohup" 125 "missing operand"
    | name :: arguments =>
      launch start (launchFailure ("nohup: failed to run command " ++ shellQuotedName name)) name
        { i with arguments }

/-- Start a program with another priority, or show the priority. -/
def niceProgram (start : Start) (i : Invocation) : Process :=
  let rules : OptionRules :=
    { name := "nice", status := 125, valued := ['n'], mixes := false
      long := [("adjustment", 'n')] }
  rules.run i.arguments fun o =>
    match o.operands with
    | [] => .saying "0\n"
    | name :: arguments =>
      launch start (launchFailure ("nice: " ++ quoted name)) name { i with arguments }

/-- Start a program that has to end within a time; here every program does. -/
def timeoutProgram (start : Start) (i : Invocation) : Process :=
  let rules : OptionRules :=
    { name := "timeout", status := 125, flags := ['f', 'p', 'v'], valued := ['k', 's']
      mixes := false
      long := [("foreground", 'f'), ("preserve-status", 'p'), ("verbose", 'v'),
        ("kill-after", 'k'), ("signal", 's')] }
  rules.run i.arguments fun o =>
    match o.operands with
    | [] | [_] => .failing 125 "Try 'timeout --help' for more information."
    | limit :: name :: arguments =>
      if !isInterval limit then hinted "timeout" 125 ("invalid time interval " ++ quoted limit)
      else launch start (launchFailure ("timeout: failed to run command " ++ quoted name)) name
        { i with arguments }

/-! ## Arguments out of the input -/

/-- The words of an input, with quotes and backslashes taken away. -/
def inputWords : (quote : Option Char) → (word : Option (List Char)) → List Char →
    List ByteText
  | _, none, [] => []
  | _, some word, [] => [String.ofList word.reverse]
  | none, word, '\\' :: c :: rest => inputWords none (some (c :: word.getD [])) rest
  | none, word, c :: rest =>
    if c = '\'' ∨ c = '"' then inputWords (some c) (some (word.getD [])) rest
    else if c = ' ' ∨ c = '\t' ∨ c = '\n' then
      match word with
      | none => inputWords none none rest
      | some word => String.ofList word.reverse :: inputWords none none rest
    else inputWords none (some (c :: word.getD [])) rest
  | some q, word, c :: rest =>
    if c = q then inputWords none word rest
    else inputWords (some q) (some (c :: word.getD [])) rest

/-- Words in batches of the same size.  Every turn takes a word at least. -/
def batches {α : Type} (size : Nat) : (budget : Nat) → List α → List (List α)
  | 0, words => [words]
  | budget + 1, words =>
    if words.length ≤ size + 1 then [words]
    else words.take (size + 1) :: batches size budget (words.drop (size + 1))

/-- The arguments of all batches are the arguments given. -/
theorem batches_flatten {α : Type} (size budget : Nat) (words : List α) :
    (batches size budget words).flatten = words := by
  induction budget generalizing words with
  | zero => simp [batches]
  | succ budget ih =>
    unfold batches
    split
    · simp
    · rw [List.flatten_cons, ih, List.take_append_drop]

/-- Start a program for arguments in turn, and join what it prints. -/
def startEach (start : Start) (name : ByteText) (failed : FileError → Process) (i : Invocation) :
    List (List ByteText) → Process
  | [] => { files := some i.files }
  | arguments :: rest =>
    match programFor i name with
    | .error e => failed e
    | .ok program =>
      let first := start program { i with arguments, input := "" }
      let others := startEach start name failed { i with files := first.files.getD i.files } rest
      let ending := match first.ending, others.ending with
        | .exited 0, ending => ending
        | .exited 255, _ => .exited 124
        | .exited _, .exited 0 => .exited 123
        | .exited _, ending => ending
        | .killed _, _ => .exited 125
      let complaint := match first.ending with
        | .exited 255 => "xargs: " ++ name ++ ": exited with status 255; aborting\n"
        | .killed signal =>
          "xargs: " ++ name ++ ": terminated by signal " ++ toString signal ++ "\n"
        | .exited _ => ""
      { others with
        ending
        stdout := first.stdout ++ others.stdout
        stderr := first.stderr ++ complaint ++ others.stderr }

/-- A word with another one in all places of a mark. -/
def filledIn (mark word : List Char) : List Char → (skip : Nat) → List Char
  | [], _ => []
  | _ :: rest, skip + 1 => filledIn mark word rest skip
  | c :: rest, 0 =>
    if mark.isPrefixOf (c :: rest) then word ++ filledIn mark word rest (mark.length - 1)
    else c :: filledIn mark word rest 0

/-- Start a program with arguments out of the input. -/
def xargsProgram (start : Start) (i : Invocation) : Process :=
  let rules : OptionRules :=
    { name := "xargs", flags := ['0', 'r', 't', 'x'], valued := ['I', 'L', 'P', 'd', 'n', 's']
      mixes := false
      long := [("null", '0'), ("no-run-if-empty", 'r'), ("max-args", 'n'), ("delimiter", 'd'),
        ("max-procs", 'P'), ("max-lines", 'L')] }
  rules.run i.arguments fun o =>
    let command := if o.operands.isEmpty then ["echo"] else o.operands
    let name := command.headD "echo"
    let given := command.drop 1
    let count := (o.value? 'n').map fun w => Text.decimalValue w.toList
    let separated := fun (c : Char) =>
      let parts := (Text.pieces c i.input.toList).map String.ofList
      if parts.getLast? = some "" then parts.dropLast else parts
    let words := if o.has '0' then separated '\x00'
      else
        match o.value? 'd', o.value? 'I' with
        | some mark, _ => separated (mark.toList.headD '\n')
        | none, some _ => (separated '\n').filter (· ≠ "")
        | none, none => inputWords none none i.input.toList
    let runs := match o.value? 'I' with
      | some mark => words.map fun word =>
        given.map fun w => String.ofList (filledIn mark.toList word.toList w.toList 0)
      | none =>
        if words.isEmpty ∧ o.has 'r' then []
        else (match count with
          | some (n + 1) => batches n words.length words
          | _ => [words]).map (given ++ ·)
    { startEach start name (launchFailure ("xargs: " ++ name)) i runs with tookInput := true }

end PhasedInduction.Host
