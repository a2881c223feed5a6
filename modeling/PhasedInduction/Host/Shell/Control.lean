import PhasedInduction.Host.Shell.Lines
import PhasedInduction.Host.Shell.Variables

/-!
# Commands about the course of a script

The commands of a shell that end it, a function or a loop, that run texts and files, that set
traps and send signals, and that ask or change the working directory.

Main results:

- Theorem {lit}`Shell.isStopped_exitCommand`: a shell that is told to exit stops.
-/

namespace PhasedInduction.Host.Shell

/-! ## Leaving -/

/-- End the shell with a status, or with that of the last command. -/
def exitCommand (arguments : List ByteText) (s : Shell) : Shell :=
  match arguments.head? with
  | none => (s.withStatus (s.trapStatus.getD s.status)).leave
  | some word =>
    match number? word with
    | some n => (s.withStatus n).leave
    | none => s.abort (illegalNumber word)

/-- A shell that is told to exit stops. -/
theorem isStopped_exitCommand (arguments : List ByteText) (s : Shell) :
    (exitCommand arguments s).isStopped = true := by
  unfold exitCommand
  split
  · simp [isStopped, leave]
  · split <;> simp [isStopped, leave, abort]

/-- End the function with a status, or with that of the last command. -/
def returnCommand (arguments : List ByteText) (s : Shell) : Shell :=
  match arguments.head? with
  | none => { s with jump := some .back }
  | some word =>
    match number? word with
    | some n => { s with status := n, jump := some .back }
    | none => s.abort (illegalNumber word)

/-- End loops, or go on with the next turn of the last of them. -/
def loopCommand (goesOn : Bool) (arguments : List ByteText) (s : Shell) : Shell :=
  let word := arguments.head?.getD "1"
  match number? word with
  | none | some 0 => s.abort (illegalNumber word)
  | some n =>
    let levels := min n s.loops
    if levels = 0 then s.withStatus 0
    else { s with status := 0, jump := some (.loops levels goesOn) }

/-! ## Texts and files -/

/-- Run the arguments as one text. -/
def evalCommand (e : Engine) (p : Position) (arguments : List ByteText) (s : Shell) : Shell :=
  runText e p (Text.joined " " arguments) s

/-- Where a shell finds a script by its name. -/
def scriptFile (s : Shell) (name : ByteText) : Except ByteText ByteText :=
  if name.toList.contains '/' then
    match readFile s.files name with
    | .ok text => .ok text
    | .error e => .error ("cannot open " ++ name ++ ": " ++ openingText "No such file" e)
  else .error (name ++ ": not found")

/-- Run the text of a file. -/
def sourceCommand (e : Engine) (arguments : List ByteText) (s : Shell) : Shell :=
  match arguments.head? with
  | none => s.withStatus 0
  | some name =>
    match s.scriptFile name with
    | .error message => s.abort message
    | .ok text =>
      let s := runText e {} text { s with command := some name }
      if s.jump = some .back then { s with jump := none } else s

/-! ## Traps and signals -/

/-- Set what is done on signals, or show it. -/
def trapCommand (arguments : List ByteText) (s : Shell) : Shell :=
  let arguments := if arguments.head? = some "--" then arguments.tail else arguments
  match arguments with
  | [] =>
    let traps := s.traps.mergeSort fun a b => a.1 ≤ b.1
    (s.print 1 (.unlines (traps.map fun (signal, action) =>
      "trap -- " ++ singleQuoted action ++ " " ++ Signal.name signal))).withStatus 0
  | first :: rest =>
    let resets := rest.isEmpty || (Signal.numbered? first).isSome || first = "-"
    let signals := if rest.isEmpty ∨ (Signal.numbered? first).isSome then arguments else rest
    signals.foldl (fun s word =>
      if s.isStopped then s
      else
        match Signal.ofText? word with
        | none => (s.print 2 ("trap: " ++ word ++ ": bad trap\n")).withStatus 1
        | some signal =>
          let others := s.traps.filter fun t => t.1 ≠ signal
          { s with traps := if resets then others else (signal, first) :: others })
      (s.withStatus 0)

/-- The number of the first process that a signal may be sent to. -/
def firstNumber : Nat := 4711

/-- Send a signal to processes; the shell knows of no process but itself and those around it. -/
def sendTo (signal : Nat) (receivers : List ByteText) (s : Shell) : Shell :=
  receivers.foldl (fun s receiver =>
    let digits := match receiver.toList with
      | '-' :: digits => digits
      | digits => digits
    match number? (String.ofList digits) with
    | none => s.complain (illegalNumber receiver)
    | some n =>
      if receiver = "0" then sendToProcess signal s
      else if firstNumber ≤ n ∧ n ≤ s.number then forward s (n, signal)
      else if s.jobs.any fun job => job.1 = n then s
      else (s.warn "No such process\n").withStatus 1) (s.withStatus 0)

/-- How signals are sent. -/
def killUsage : ByteText :=
  "Usage: kill [-s sigspec | -signum | -sigspec] [pid | job]... or\nkill -l [exitstatus]"

/-- Show the names of the signals, or of one of them by its number or the status it makes. -/
def listSignals (arguments : List ByteText) (s : Shell) : Shell :=
  match arguments.head? with
  | none =>
    (s.print 1 (.unlines ("0" :: (List.range Signal.last).map fun n =>
      Signal.name (n + 1)))).withStatus 0
  | some word =>
    match number? word with
    | none => s.complain (illegalNumber word)
    | some n =>
      let signal := if 128 < n then n - 128 else n
      if 0 < signal ∧ signal ≤ Signal.last then
        (s.print 1 (Signal.name signal ++ "\n")).withStatus 0
      else s.complain ("invalid signal number or exit status: " ++ word)

/-- Send a signal. -/
def killCommand (arguments : List ByteText) (s : Shell) : Shell :=
  match arguments with
  | [] => s.complain killUsage
  | first :: rest =>
    match first.toList with
    | '-' :: letters =>
      match Signal.ofText? (String.ofList letters) with
      | some signal => if rest.isEmpty then s.complain killUsage else sendTo signal rest s
      | none =>
        match letters with
        | ['l'] => listSignals rest s
        | ['-'] => if rest.isEmpty then s.complain killUsage else sendTo 15 rest s
        | 's' :: inside =>
          let (name, rest) := if inside.isEmpty then (rest.head?.getD "", rest.tail)
            else (String.ofList inside, rest)
          match Signal.ofText? name with
          | some signal => if rest.isEmpty then s.complain killUsage else sendTo signal rest s
          | none => s.complain ("invalid signal number or name: " ++ name)
        | letter :: _ => s.complain ("Illegal option -" ++ String.ofList [letter])
        | [] => s.complain killUsage
    | _ => sendTo 15 arguments s

/-- Wait for commands in the background, which have ended already. -/
def waitCommand (arguments : List ByteText) (s : Shell) : Shell :=
  arguments.foldl (fun s word =>
    match number? word with
    | none => s.complain (illegalNumber word)
    | some n => s.withStatus ((s.jobs.lookup n).getD 127)) (s.withStatus 0)

/-! ## The working directory -/

/-- The path of the working directory. -/
def herePath (s : Shell) : ByteText :=
  match s.here with
  | [] => "/"
  | names => String.join (names.map fun name => "/" ++ ByteText.ofText name)

/-- Go to another directory. -/
def cdCommand (arguments : List ByteText) (s : Shell) : Shell :=
  let arguments := arguments.dropWhile fun a => a = "-P" || a = "-L" || a = "--"
  let target := match arguments.head? with
    | none => (s.value? "HOME").getD ""
    | some "-" => (s.value? "OLDPWD").getD s.herePath
    | some path => path
  let place := if target = "" then .ok s.here else placeOf s.files target
  match place with
  | .error _ => s.complain ("can't cd to " ++ target)
  | .ok place =>
    if s.files.node? place ≠ some .directory then s.complain ("can't cd to " ++ target)
    else
      let before := s.herePath
      let s := ((({ s with here := place }.setValue "OLDPWD" before)).withStatus 0)
      let s := s.setValue "PWD" s.herePath
      if arguments.head? = some "-" then s.print 1 (s.herePath ++ "\n") else s

/-! ## Permissions -/

/-- The permissions that a mask leaves, for the owner, the group and all others. -/
def permissions (mask : Nat) : ByteText :=
  let granted := fun (who : ByteText) (n : Nat) =>
    who ++ "=" ++ String.join ([(4, "r"), (2, "w"), (1, "x")].filterMap fun (bit, letter) =>
      if n / bit % 2 = 0 then some letter else none)
  Text.joined "," [granted "u" (mask / 64), granted "g" (mask / 8), granted "o" mask]

/-- Set the mask or show it. -/
def umaskCommand (arguments : List ByteText) (s : Shell) : Shell :=
  match arguments with
  | [] =>
    let digit := fun (n : Nat) => toString (s.mask / n % 8)
    (s.print 1 ("0" ++ digit 64 ++ digit 8 ++ digit 1 ++ "\n")).withStatus 0
  | "-S" :: _ => (s.print 1 (permissions s.mask ++ "\n")).withStatus 0
  | word :: _ =>
    if word.toList.all fun c => '0' ≤ c && c ≤ '7' then
      { s.withStatus 0 with
        mask := word.toList.foldl (fun n c => (n * 8 + (c.toNat - 48)) % 512) 0 }
    else if word.toList.all Text.isDecimal then s.complain (illegalNumber word)
    else s.complain ("Illegal mode: " ++ word)

/-- Show the working directory. -/
def pwdCommand (s : Shell) : Shell := (s.print 1 (s.herePath ++ "\n")).withStatus 0

end PhasedInduction.Host.Shell
