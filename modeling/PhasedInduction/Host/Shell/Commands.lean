import PhasedInduction.Host.Condition.Inside
import PhasedInduction.Host.Search
import PhasedInduction.Host.Shell.Control

/-!
# The commands that a shell knows

A name stands for a command of the shell, a function, or a program of the host.  Some commands
of the shell are special: their failure ends it, and no function takes their place.
-/

namespace PhasedInduction.Host.Shell

/-! ## Printing -/

/-- Print what a command of the shell prints; it fails if there is nowhere to print to. -/
def printOut (s : Shell) (text : ByteText) (status : Nat) : Shell :=
  if text ≠ "" ∧ (s.stream? 1).isNone then
    (s.warn (s.command.getD "" ++ ": I/O error")).withStatus 1
  else (s.print 1 text).withStatus status

/-- Print arguments in a format. -/
def printfCommand (arguments : List ByteText) (s : Shell) : Shell :=
  let arguments := if arguments.head? = some "--" then arguments.tail else arguments
  match arguments with
  | [] => s.complain "usage: printf format [arg ...]"
  | format :: arguments =>
    let w := Format.run .shell format arguments
    let faults := w.faults.reverse
    let status : Nat := if faults.isEmpty then 0
      else if faults.all fun | .number _ _ => true | _ => false then 1 else 2
    ((faults.filterMap FormatFault.shellMessage).foldl warn s).printOut w.text status

/-- Answer a condition. -/
def testCommand (name : ByteText) (arguments : List ByteText) (s : Shell) : Shell :=
  match InsideTest.run s.files name arguments with
  | .ok answer => s.withStatus (if answer then 0 else 1)
  | .error fault => s.complain fault.message

/-! ## The commands by name -/

/-- The special commands. -/
def specialCommands : List ByteText :=
  [".", ":", "break", "continue", "eval", "exec", "exit", "export", "local", "readonly", "return",
    "set", "shift", "times", "trap", "unset"]

/-- The other commands of the shell. -/
def plainCommands : List ByteText :=
  ["[", "alias", "bg", "cd", "chdir", "command", "echo", "false", "fg", "getopts", "hash", "jobs",
    "kill", "printf", "pwd", "read", "test", "true", "type", "ulimit", "umask", "unalias", "wait"]

/-- What a name stands for. -/
inductive Meaning where
  | special
  | function (body : ScriptCommand)
  | plain
  /-- A program of the host with its path. -/
  | program (path program : String)
  /-- No command, for this reason, with the status that a shell then has. -/
  | unknown (reason : ByteText) (status : Nat)

/-- The directories that a shell looks for programs in. -/
def searchList (s : Shell) : List String :=
  searchDirectories ((s.value? "PATH").getD "").toText

/-- The program that a name stands for. -/
def findProgram (s : Shell) (name : ByteText) : Meaning :=
  if name.toList.contains '/' then
    match programAt s.files name.toText with
    | .ok program => .program name.toText program
    | .error .permissionDenied => .unknown "Permission denied" 126
    | .error .nameTooLong => .unknown (errorText .nameTooLong) 127
    | .error _ => .unknown "not found" 127
  else
    match search s.files name.toText false s.searchList with
    | .ok (path, program) => .program path program
    | .error .permissionDenied => .unknown "Permission denied" 127
    | .error _ => .unknown "not found" 127

/-- What a name stands for, with functions or without. -/
def find (s : Shell) (functions : Bool) (name : ByteText) : Meaning :=
  if specialCommands.contains name then .special
  else
    match if functions then s.functions.lookup name else none with
    | some body => .function body
    | none => if plainCommands.contains name then .plain else s.findProgram name

/-- What a name stands for, in words. -/
def describe (s : Shell) (name : ByteText) : ByteText × Nat :=
  if ScriptToken.keywords.contains name then (name ++ " is a shell keyword\n", 0)
  else
    match s.find true name with
    | .special => (name ++ " is a special shell builtin\n", 0)
    | .function _ => (name ++ " is a shell function\n", 0)
    | .plain => (name ++ " is a shell builtin\n", 0)
    | .program path _ =>
      let how := if s.known.contains name then " is a tracked alias for " else " is "
      (name ++ how ++ ByteText.ofText path ++ "\n", 0)
    | .unknown _ _ => (name ++ ": not found\n", 127)

/-- What a name stands for, as it could be started. -/
def locate (s : Shell) (name : ByteText) : ByteText × Nat :=
  if ScriptToken.keywords.contains name then (name ++ "\n", 0)
  else
    match s.find true name with
    | .program path _ => (ByteText.ofText path ++ "\n", 0)
    | .unknown _ _ => ("", 127)
    | _ => (name ++ "\n", 0)

/-- The shell when it has looked for the program of a name. -/
def remember (s : Shell) (name : ByteText) : Shell :=
  match s.find false name with
  | .program _ _ => if name.toList.contains '/' then s else { s with known := name :: s.known }
  | _ => s

/-- Tell what names stand for. -/
def tell (how : Shell → ByteText → ByteText × Nat) (names : List ByteText) (s : Shell) : Shell :=
  let (texts, s) := names.foldl (fun (texts, s) name =>
    let (text, status) := how s name
    (text :: texts, (s.withStatus (if status = 0 then s.status else status)).remember name))
    ([], s.withStatus 0)
  s.printOut (String.join texts.reverse) s.status

/-- Look for programs, forget those that were found, or show them. -/
def hashCommand (arguments : List ByteText) (s : Shell) : Shell :=
  match arguments with
  | [] =>
    let paths := s.known.eraseDups.filterMap fun name =>
      match s.findProgram name with
      | .program path _ => some (ByteText.ofText path)
      | _ => none
    s.printOut (.unlines paths.reverse) 0
  | ["-r"] => { s.withStatus 0 with known := [] }
  | names =>
    names.foldl (fun s name =>
      match s.find false name with
      | .unknown _ _ => (s.warn (name ++ ": not found")).withStatus 1
      | _ => s.remember name) (s.withStatus 0)

/-- A command of the shell that is not special, {lit}`command` apart. -/
def runPlain (name : ByteText) (arguments : List ByteText) (s : Shell) : Shell :=
  match name with
  | "[" | "test" => testCommand name arguments s
  | "cd" | "chdir" => cdCommand arguments s
  | "echo" => s.printOut (shellEcho arguments) 0
  | "false" => s.withStatus 1
  | "getopts" => getoptsCommand arguments s
  | "kill" => killCommand arguments s
  | "printf" => printfCommand arguments s
  | "pwd" => pwdCommand s
  | "read" => readCommand arguments s
  | "type" => tell describe arguments s
  | "umask" => umaskCommand arguments s
  | "hash" => hashCommand arguments s
  | "bg" | "fg" => s.complain "No current job"
  | "wait" => waitCommand arguments s
  | _ => s.withStatus 0

/-- A special command, {lit}`exec` apart. -/
def runSpecial (e : Engine) (p : Position) (name : ByteText) (arguments : List ByteText)
    (s : Shell) : Shell :=
  match name with
  | "." => sourceCommand e arguments s
  | "break" => loopCommand false arguments s
  | "continue" => loopCommand true arguments s
  | "eval" => evalCommand e p arguments s
  | "exit" => exitCommand arguments s
  | "export" =>
    declareCommand name (·.isExported) (fun v => { v with isExported := true }) arguments s
  | "local" => localCommand arguments s
  | "readonly" =>
    declareCommand name (·.isReadOnly) (fun v => { v with isReadOnly := true }) arguments s
  | "return" => returnCommand arguments s
  | "set" => setCommand arguments s
  | "shift" => shiftCommand arguments s
  | "trap" => trapCommand arguments s
  | "unset" => unsetCommand arguments s
  | _ => s.withStatus 0

end PhasedInduction.Host.Shell
