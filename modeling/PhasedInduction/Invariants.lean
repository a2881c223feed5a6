import PhasedInduction.Artifact
import PhasedInduction.Command
import PhasedInduction.Config.Basic
import PhasedInduction.Text.Blank

/-!
# Invariant generation

An external generator reads an artifact and writes a sibling of it with loop
invariants.  The run succeeds exactly when the generator reports success, whatever its
exit code.

Main results:

- Theorem {lit}`InvariantSettings.generate_eq_ok_iff`: when a run gives an artifact, and which.
-/

namespace PhasedInduction

/-- Why a run of the generator gave no artifact. -/
structure CommandFailure where
  command : String
  reason : String
deriving DecidableEq, Repr

/-- How a process ended, in the words of a failure. -/
def ProcessResult.status (r : ProcessResult) : String :=
  match r.exitCode with
  | some code => "exit status " ++ toString code
  | none => "terminated by signal"

/-- Why a result does not count as success, if it does not. -/
def RunResult.failureReason? : RunResult → Option String
  | .error reason => some ("failed to spawn: " ++ reason)
  | .ok result =>
    if result.success then none
    else some (result.status ++ ": " ++ Text.trimmed result.stderr)

namespace InvariantSettings

/-- The artifact that the generator writes for an input. -/
def outputFor (s : InvariantSettings) (input : Artifact) : Artifact :=
  input.withReplacedExtension s.outputSuffix

/-- The command of the generator for an input. -/
def commandFor (s : InvariantSettings) (input : Artifact) : Command where
  program := s.program
  arguments :=
    ["--crab-inter", "--crab-opt=add-invariants", "--crab-opt-invariants-loc=loop-header",
      "--crab-track=mem", "--crab-widening-delay=" ++ toString s.wideningDelay.toNat,
      input.path, "-o", (s.outputFor input).path]

/-- Run the generator on an input. -/
def generate (s : InvariantSettings) (run : Command → RunResult) (input : Artifact) :
    Except CommandFailure Artifact :=
  let command := s.commandFor input
  match RunResult.failureReason? (run command) with
  | some reason => .error ⟨command.display, reason⟩
  | none => .ok (s.outputFor input)

/-- The generator gives an artifact exactly when its run reports success, and then it is
the sibling of the input. -/
theorem generate_eq_ok_iff (s : InvariantSettings) (run : Command → RunResult)
    (input output : Artifact) :
    s.generate run input = .ok output ↔
      (∃ result, run (s.commandFor input) = .ok result ∧ result.success = true) ∧
        output = s.outputFor input := by
  unfold generate
  cases h : run (s.commandFor input) with
  | error reason => simp [RunResult.failureReason?, h]
  | ok result =>
    cases hs : result.success with
    | false => simp [RunResult.failureReason?, h, hs]
    | true =>
      simp only [RunResult.failureReason?, h, hs, if_true, Except.ok.injEq, exists_eq_left']
      simpa using eq_comm

end InvariantSettings

end PhasedInduction
