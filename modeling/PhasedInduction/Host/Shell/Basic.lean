import PhasedInduction.Host.Device
import PhasedInduction.Host.Script.Grammar
import PhasedInduction.Host.Signal
import PhasedInduction.Rows

/-!
# Shells

A shell at work: its parameters, variables and functions, where its descriptors lead, and why
it leaves the command it is in.  Shells within one process share the streams, the files and
the signals sent to it; all else belongs to one of them.

Main results:

- Theorem {lit}`Shell.shared_adopt`: a shell goes on with the streams of the shell inside it.
-/

namespace PhasedInduction.Host

/-! ## The parts of a shell -/

/-- Where a descriptor leads. -/
inductive Stream where
  /-- Bytes that can be read. -/
  | source (n : Nat)
  /-- Bytes that are collected. -/
  | sink (n : Nat)
  /-- The end of a file. -/
  | file (place : Location)
deriving DecidableEq, Repr

/-- What the shells of a process share. -/
structure Shared where
  /-- What is left in each source. -/
  sources : Array (List Char) := #[]
  /-- What each sink holds, the last part first. -/
  sinks : Array (List ByteText) := #[]
  files : FileTree
  /-- The signals that shells inside the process sent to it, the last one first. -/
  sent : List Nat := []
  /-- The signals to processes around this one, by their numbers, the last one first. -/
  sentOut : List (Nat × Nat) := []
  /-- The signal that ended the process. -/
  killed : Option Nat := none
deriving DecidableEq, Repr

/-- A variable. -/
structure ShellVariable where
  value : Option ByteText := none
  isExported : Bool := false
  isReadOnly : Bool := false
deriving DecidableEq, Repr

/-- Why a shell leaves the command it is in. -/
inductive Jump where
  /-- The shell ends. -/
  | leave
  /-- The shell ends because of a failure, unless the command is one that may fail. -/
  | fail
  /-- The function ends. -/
  | back
  /-- Loops end, so many of them, or the last of them goes on with its next turn. -/
  | loops (levels : Nat) (goesOn : Bool)
deriving DecidableEq, Repr

/-- A shell at work. -/
structure Shell where
  /-- The name that its messages begin with. -/
  name : ByteText
  /-- The number of the process. -/
  number : Nat := 4711
  parameters : List ByteText := []
  bindings : List (ByteText × ShellVariable) := []
  functions : List (ByteText × ScriptCommand) := []
  /-- The names of the programs that were found before. -/
  known : List ByteText := []
  /-- What is done on a signal, by its number; the number zero stands for the end. -/
  traps : List (Nat × ByteText) := []
  /-- The letters of the options that are set. -/
  options : List Char := []
  /-- The status of the last command. -/
  status : Nat := 0
  /-- The status of the last command whose output a word of this command stands for. -/
  outputStatus : Nat := 0
  /-- The number of the line that is at work. -/
  line : Nat := 1
  /-- The command of the shell that is at work. -/
  command : Option ByteText := none
  descriptors : List (Nat × Stream) := []
  here : Location := []
  /-- The permissions that new files do not get. -/
  mask : Nat := 18
  /-- Whether it runs inside another shell of the process. -/
  isInner : Bool := false
  /-- How many loops and functions the shell is in. -/
  loops : Nat := 0
  calls : Nat := 0
  /-- The variables that functions have of their own, with what they were before. -/
  saved : List (List (ByteText × Option ShellVariable)) := []
  /-- How far the options of the parameter at work are read. -/
  optionOffset : Nat := 0
  /-- The status that the shell ends with if a trap does not say otherwise. -/
  trapStatus : Option Nat := none
  /-- The signals that came and are not dealt with yet. -/
  pending : List Nat := []
  /-- The commands in the background with their statuses, the last one first. -/
  jobs : List (Nat × Nat) := []
  jump : Option Jump := none
  shared : Shared

namespace Shell

/-! ## Variables -/

/-- A variable. -/
def entry? (s : Shell) (name : ByteText) : Option ShellVariable := s.bindings.lookup name

/-- The value of a variable. -/
def value? (s : Shell) (name : ByteText) : Option ByteText := (s.entry? name).bind (·.value)

/-- The shell with a variable in place of an earlier one. -/
def setVariable (s : Shell) (name : ByteText) (v : ShellVariable) : Shell :=
  { s with
    bindings := (name, v) :: s.bindings.filter fun e => e.1 ≠ name
    known := if name = "PATH" then [] else s.known }

/-- The shell without a variable. -/
def dropVariable (s : Shell) (name : ByteText) : Shell :=
  { s with bindings := s.bindings.filter fun e => e.1 ≠ name }

/-- The shell with a value for a variable; all variables are exported if an option says so. -/
def setValue (s : Shell) (name value : ByteText) : Shell :=
  let v := (s.entry? name).getD {}
  s.setVariable name { v with
    value := some value
    isExported := v.isExported || s.options.contains 'a' }

/-- Whether a variable keeps its value. -/
def isReadOnly (s : Shell) (name : ByteText) : Bool :=
  ((s.entry? name).map (·.isReadOnly)).getD false

/-- The variables that a command is started with. -/
def exported (s : Shell) : List (ByteText × ByteText) :=
  s.bindings.reverse.filterMap fun (name, v) =>
    if v.isExported then v.value.map fun value => (name, value) else none

/-- Whether an option is set. -/
def has (s : Shell) (option : Char) : Bool := s.options.contains option

/-! ## Streams -/

/-- Where a descriptor leads. -/
def stream? (s : Shell) (descriptor : Nat) : Option Stream := s.descriptors.lookup descriptor

/-- The shell with a descriptor that leads elsewhere, or nowhere. -/
def direct (s : Shell) (descriptor : Nat) (stream : Option Stream) : Shell :=
  let others := s.descriptors.filter fun e => e.1 ≠ descriptor
  { s with descriptors := match stream with
      | some stream => (descriptor, stream) :: others
      | none => others }

/-- The files as they look from the working directory. -/
def files (s : Shell) : FileTree := { s.shared.files with here := s.here }

/-- The shell with changed files. -/
def setFiles (s : Shell) (files : FileTree) : Shell :=
  { s with shared := { s.shared with files } }

/-- Write to a stream. -/
def write (s : Shell) (stream : Stream) (bytes : ByteText) : Shell :=
  match stream with
  | .sink n => { s with shared := { s.shared with sinks := s.shared.sinks.modify n (bytes :: ·) } }
  | .file place => s.setFiles (append s.shared.files place bytes)
  | .source _ => s

/-- Write to a descriptor, if it leads anywhere. -/
def print (s : Shell) (descriptor : Nat) (bytes : ByteText) : Shell :=
  match s.stream? descriptor with
  | some stream => if bytes = "" then s else s.write stream bytes
  | none => s

/-- What a sink holds. -/
def written (s : Shell) (n : Nat) : ByteText :=
  String.join (s.shared.sinks[n]?.getD []).reverse

/-- The shell with a new sink, and its number. -/
def newSink (s : Shell) : Nat × Shell :=
  (s.shared.sinks.size, { s with shared := { s.shared with sinks := s.shared.sinks.push [] } })

/-- The shell with a new source, and its number. -/
def newSource (s : Shell) (bytes : ByteText) : Nat × Shell :=
  (s.shared.sources.size,
    { s with shared := { s.shared with sources := s.shared.sources.push bytes.toList } })

/-- What can be read from a descriptor. -/
def readable (s : Shell) (descriptor : Nat) : List Char :=
  match s.stream? descriptor with
  | some (.source n) => s.shared.sources[n]?.getD []
  | _ => []

/-- The shell with so much left to be read from a descriptor. -/
def leaveToRead (s : Shell) (descriptor : Nat) (bytes : List Char) : Shell :=
  match s.stream? descriptor with
  | some (.source n) =>
    { s with shared := { s.shared with sources := s.shared.sources.modify n fun _ => bytes } }
  | _ => s

/-! ## Messages -/

/-- What messages begin with. -/
def messageStart (s : Shell) : ByteText :=
  s.name ++ ": " ++ toString s.line ++ ": " ++
    (match s.command with
      | some command => command ++ ": "
      | none => "")

/-- Print a message. -/
def warn (s : Shell) (message : ByteText) : Shell :=
  s.print 2 (s.messageStart ++ message ++ "\n")

/-- The shell with a status. -/
def withStatus (s : Shell) (status : Nat) : Shell := { s with status }

/-- Print a message about a failure. -/
def complain (s : Shell) (message : ByteText) : Shell := (s.warn message).withStatus 2

/-- The shell at its end. -/
def leave (s : Shell) : Shell := { s with jump := some .leave }

/-- Print a message about a failure that ends the shell. -/
def abort (s : Shell) (message : ByteText) : Shell :=
  { s.complain message with jump := some .fail }

/-- The shell after a command that may fail. -/
def recovered (s : Shell) : Shell := if s.jump = some .fail then { s with jump := none } else s

/-- Whether the shell does not go on with its command. -/
def isStopped (s : Shell) : Bool := s.jump.isSome || s.shared.killed.isSome

/-! ## Signals -/

/-- Send a signal to the shell itself. -/
def sendSignal (signal : Nat) (s : Shell) : Shell :=
  match if Signal.isStrict signal then none else s.traps.lookup signal with
  | some "" => s
  | some _ => { s with pending := s.pending ++ [signal] }
  | none =>
    if Signal.effect signal = .ends then
      { s with shared := { s.shared with killed := some signal } }
    else s

/-- Send a signal to the process of the shell; one that comes from a shell inside it arrives
later. -/
def sendToProcess (signal : Nat) (s : Shell) : Shell :=
  if s.isInner then { s with shared := { s.shared with sent := signal :: s.shared.sent } }
  else sendSignal signal s

/-- Pass on a signal for the process of some number. -/
def forward (s : Shell) (sent : Nat × Nat) : Shell :=
  if sent.1 = s.number then s.sendToProcess sent.2
  else { s with shared := { s.shared with sentOut := sent :: s.shared.sentOut } }

/-- Let the signals arrive that were sent by shells inside this one. -/
def deliver (s : Shell) : Shell :=
  if s.isInner then s
  else s.shared.sent.foldr sendSignal { s with shared := { s.shared with sent := [] } }

@[simp]
theorem bindings_sendSignal (signal : Nat) (s : Shell) :
    (sendSignal signal s).bindings = s.bindings := by
  unfold sendSignal
  split <;> try rfl
  split <;> rfl

/-- A signal changes no variable. -/
@[simp]
theorem bindings_deliver (s : Shell) : s.deliver.bindings = s.bindings := by
  unfold deliver
  split
  · rfl
  · induction s.shared.sent with
    | nil => rfl
    | cons signal sent ih => simpa using ih

/-! ## Shells inside shells -/

/-- The shell that a command of its own runs in.  What is done on a signal is forgotten, except
for signals that are passed over. -/
def child (s : Shell) : Shell :=
  { s with
    traps := s.traps.filter fun t => t.2 = ""
    isInner := true
    jump := none
    jobs := []
    pending := [] }

/-- The shell after one inside it. -/
def adopt (s inner : Shell) : Shell :=
  { s with shared := inner.shared, status := inner.status % 256 }

/-- A shell goes on with the streams of the shell inside it, and with its own variables. -/
@[simp]
theorem shared_adopt (s inner : Shell) :
    (s.adopt inner).shared = inner.shared ∧ (s.adopt inner).bindings = s.bindings :=
  ⟨rfl, rfl⟩

end Shell

/-! ## Running commands -/

/-- The position of a command: whether its failure is looked at by the one around it. -/
structure Position where
  isTested : Bool := false
deriving DecidableEq, Repr

namespace Position

/-- A command that another one looks at. -/
def tested : Position := { isTested := true }

end Position

/-- What a piece adds to the words of a command. -/
inductive WordPart where
  /-- A character between quotes. -/
  | quoted (c : Char)
  /-- A character of the script. -/
  | plain (c : Char)
  /-- A character of a value. -/
  | value (c : Char)
  /-- There is a word here, even without characters. -/
  | mark
  /-- The word ends here. -/
  | gap
deriving DecidableEq, Repr

/-- How a shell runs what its commands are made of, and how the host starts programs. -/
structure Engine where
  run : Position → ScriptCommand → Shell → Shell
  /-- Run a command in a shell of its own. -/
  inside : Position → ScriptCommand → Shell → Shell
  parts : Word → Shell → List WordPart × Shell
  start : (program : String) → Invocation → Process

namespace Engine

/-- An engine that does nothing any more. -/
def spent (start : (program : String) → Invocation → Process) : Engine where
  run _ _ s := s
  inside _ _ s := s
  parts _ s := ([], s)
  start := start

end Engine

end PhasedInduction.Host
