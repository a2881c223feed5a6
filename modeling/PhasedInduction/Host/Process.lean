import PhasedInduction.Command
import PhasedInduction.FileTree
import PhasedInduction.Host.ByteText

/-!
# Processes

What a process of a host is given, and what is left when it has ended: how it ended, the
bytes it printed, and the files it changed.  What the rest of the library gets of it is a
result with texts.

Main results:

- Theorem {lit}`Process.success_result_iff`: only the exit status zero is a success.
-/

namespace PhasedInduction.Host

/-- How a process ended. -/
inductive Ending where
  | exited (status : UInt8)
  /-- A signal ended it. -/
  | killed (signal : Nat)
deriving DecidableEq, Repr

/-- The status that a shell sees. -/
def Ending.status : Ending → UInt8
  | .exited status => status
  | .killed signal => UInt8.ofNat (128 + signal)

/-- What a process is started with. -/
structure Invocation where
  arguments : List ByteText
  /-- The bytes that can be read from the standard input. -/
  input : ByteText := ""
  /-- The variables of the surroundings. -/
  environment : List (ByteText × ByteText) := []
  files : FileTree
  /-- Whether there is a standard output. -/
  hasOutput : Bool := true
  /-- The number of the process; the one that started it has the number before. -/
  number : Nat := 4711
deriving DecidableEq, Repr

/-- A finished process. -/
structure Process where
  ending : Ending := .exited 0
  stdout : ByteText := ""
  stderr : ByteText := ""
  /-- Whether it read its standard input to the end. -/
  tookInput : Bool := false
  /-- The files it left, if it changed any. -/
  files : Option FileTree := none
  /-- The signals that it sent to processes around it, by their numbers, the last one first. -/
  sent : List (Nat × Nat) := []
deriving DecidableEq, Repr

namespace Process

/-- A process that printed nothing. -/
def silent (status : UInt8) : Process := { ending := .exited status }

/-- A process that printed a byte text to its standard output. -/
def saying (stdout : ByteText) : Process := { stdout }

/-- A process that failed with a message. -/
def failing (status : UInt8) (message : ByteText) : Process :=
  { ending := .exited status, stderr := message ++ "\n" }

/-- The process when there was no standard output to print to. -/
def withoutOutput (p : Process) (name : ByteText) : Process :=
  if p.stdout = "" then p
  else
    { p with
      ending := .exited 1
      stdout := ""
      stderr := p.stderr ++ name ++ ": write error: Bad file descriptor\n" }

/-- The exit status, if there is one. -/
def exitStatus? (p : Process) : Option UInt8 :=
  match p.ending with
  | .exited status => some status
  | .killed _ => none

/-- The result of a finished process. -/
def result (p : Process) : ProcessResult where
  exitCode := p.exitStatus?.map fun status => Int.ofNat status.toNat
  success := p.ending = .exited 0
  stdout := p.stdout.toText
  stderr := p.stderr.toText

/-- Only the exit status zero is a success. -/
theorem success_result_iff (p : Process) :
    p.result.success = true ↔ p.result.exitCode = some 0 := by
  obtain ⟨ending, out, err, took, files, sent⟩ := p
  cases ending with
  | killed => simp [result, exitStatus?]
  | exited status =>
    simp only [result, exitStatus?, Ending.exited.injEq, decide_eq_true_eq, Option.map_some,
      Option.some.injEq]
    constructor
    · rintro rfl
      rfl
    · intro h
      refine UInt8.toNat_inj.1 (Int.ofNat.inj ?_)
      simpa using h

end Process

end PhasedInduction.Host
