import PhasedInduction.Text.Split

/-!
# External commands

A command is a program with arguments, and a run of it either does not start or ends
with a result.  A runner answers commands one after the other, so its answer may depend
on the commands before.  A script lists the answers in advance; when it is used up, every
further command succeeds.
-/

namespace PhasedInduction

/-- A program and its arguments. -/
structure Command where
  program : String
  arguments : List String
deriving DecidableEq, Repr

/-- The text of a command: its program and arguments with spaces between them. -/
def Command.display (c : Command) : String :=
  Text.joined " " (c.program :: c.arguments)

/-- What a finished process leaves; it has no exit code if a signal ended it. -/
structure ProcessResult where
  exitCode : Option Int
  success : Bool
  stdout : String := ""
  stderr : String := ""
deriving DecidableEq, Repr

/-- The result of a run: the reason why it did not start, or what it left. -/
abbrev RunResult := Except String ProcessResult

/-- A run that ends well and prints nothing. -/
def ProcessResult.succeeded : ProcessResult := ⟨some 0, true, "", ""⟩

/-- What answers a command, given the commands before it. -/
abbrev Runner := (earlier : List Command) → Command → RunResult

namespace Runner

/-- Answers every command by itself, whatever came before. -/
def steady (run : Command → RunResult) : Runner := fun _ => run

/-- Answers the commands in turn with the results of a script. -/
def scripted (script : List RunResult) : Runner := fun earlier _ =>
  script[earlier.length]?.getD (.ok .succeeded)

end Runner

end PhasedInduction
