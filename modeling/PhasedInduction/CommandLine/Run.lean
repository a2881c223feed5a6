import PhasedInduction.CommandLine.Arguments
import PhasedInduction.CommandLine.Preview
import PhasedInduction.Config.File

/-!
# The command line program

What the program does for its arguments: write a default configuration, show the passes or
the verifier runs for a property, classify the description of a run, or generate invariants
for an artifact.

Main results:

- Theorem {lit}`CommandLine.exists_controllerOf`: the configuration that is read always has a
  controller.
- Theorem {lit}`CommandLine.files_run_of_ne_init`: only one command changes files.
-/

namespace PhasedInduction.CommandLine

/-- Where the configuration is if nothing else is said. -/
def defaultConfigPath : String := ".kbmc/config.toml"

/-- What the program says about its version. -/
def versionLine : String := "kbmc 0.1.0"

/-- What the program works with. -/
structure Workplace where
  files : FileTree
  /-- What answers the command of the generator. -/
  answer : Command → RunResult
  style : Style := {}
  /-- The help for the program, or for a command of it. -/
  help : Option String → String := fun _ => usage

/-! ## Commands -/

/-- Write a default configuration where nothing is yet. -/
def writeDefault (w : Workplace) (path : String) : Report :=
  if w.files.contains path.toList then
    .printing w.files ["Config already exists at " ++ path]
  else
    match Config.write {} w.files path with
    | (.ok (), files) => .printing files ["Created " ++ path]
    | (.error (.io reason), files) =>
      .failing files ⟨"Failed to write " ++ path, [(CampaignError.io reason).message, reason]⟩
    | (.error e, files) => .failing files ⟨"Failed to write " ++ path, [e.message]⟩

/-- The controller of the configuration at a path. -/
def controllerOf (files : FileTree) (path : String) : Except ErrorReport Controller :=
  match Controller.ofConfig (Config.read files path) with
  | .ok controller => .ok controller
  | .error e => .error ⟨"Invalid configuration", [e.message]⟩

/-- The configuration that is read always has a controller. -/
theorem exists_controllerOf (files : FileTree) (path : String) :
    ∃ controller, controllerOf files path = .ok controller := by
  have hvalid := ((Config.read files path).validate_eq_ok_iff).mpr (Config.fault?_read files path)
  obtain ⟨controller, hcontroller⟩ := Controller.exists_ofConfig hvalid
  exact ⟨controller, by rw [controllerOf, hcontroller]⟩

/-- The property of a text. -/
def propertyOf (text : String) : Except ErrorReport Property :=
  match Property.parse text with
  | .ok property => .ok property
  | .error e => .error ⟨"Invalid property '" ++ text ++ "'", [e.message]⟩

/-- The lines that show what the first phases for a property would run. -/
def planLines (w : Workplace) (path property : String) (phases : UInt32) (json : Bool) :
    Except ErrorReport (List String) := do
  let controller ← controllerOf w.files path
  let property ← propertyOf property
  let preview := Preview.ofController controller property phases
  return if json then [preview.toJson.sorted.pretty] else preview.lines w.style

/-- What is shown where no runs are planned. -/
def noFanoutLine : String := "No fan-out for this property; a single default run applies."

/-- The lines of planned runs from a number on. -/
def taskLines (number : Nat) : List VerifierTask → List String
  | [] => []
  | task :: tasks =>
    ("  #" ++ toString number ++ " " ++ task.verifier.name ++ " weight="
      ++ toString task.weight.toNat) :: taskLines (number + 1) tasks

/-- The lines that show the runs planned for a property. -/
def verifierLines (w : Workplace) (path property verifier llvmVersion : String)
    (json : Bool) : Except ErrorReport (List String) := do
  let controller ← controllerOf w.files path
  let property ← propertyOf property
  let plan := VerifierPlan.forProperty property.classifier { name := verifier, llvmVersion }
    controller.fanout
  let tasks := plan.toList
  if json then
    match tasks.mapM VerifierTask.toJson with
    | .ok items => .ok [(Json.array items).pretty]
    | .error reason => .error ⟨reason, []⟩
  else
    return if tasks.isEmpty then [w.style.paint .yellow noFanoutLine] else taskLines 1 tasks

/-- The line that shows the class of a description, and the signal that it raises. -/
def classLine (style : Style) (description : String) : String :=
  let outcomeClass := OutcomeClass.classify description
  match FailureSignal.ofClass? outcomeClass with
  | some signal => outcomeClass.name ++ " -> " ++ style.paint .red signal.name
  | none => outcomeClass.name

/-- The lines that show where the invariants for an artifact are. -/
def invariantLines (w : Workplace) (path artifact : String) :
    Except ErrorReport (List String) :=
  match (Config.read w.files path).invariants.generate w.answer ⟨artifact⟩ with
  | .ok output => .ok [w.style.paint .green "Invariants written to" ++ " " ++ output.path]
  | .error failure =>
    .error ⟨"`" ++ failure.command ++ "` failed: " ++ failure.reason, []⟩

/-! ## The program -/

/-- The report of lines, or of the reason why there are none. -/
def reportOf (files : FileTree) : Except ErrorReport (List String) → Report
  | .ok lines => .printing files lines
  | .error e => .failing files e

/-- Carry out a command with the configuration at a path. -/
def runCommand (w : Workplace) (path : String) : Subcommand → Report
  | .init => writeDefault w path
  | .plan property phases json => reportOf w.files (planLines w path property phases json)
  | .verifiers property verifier llvmVersion json =>
    reportOf w.files (verifierLines w path property verifier llvmVersion json)
  | .classify description => .printing w.files [classLine w.style description]
  | .invariants artifact => reportOf w.files (invariantLines w path artifact)

/-- Run the program. -/
def run (w : Workplace) (arguments : List String) : Report :=
  match parse arguments with
  | none => .misused w.files
  | some .version => .printing w.files [versionLine]
  | some (.help command) => { exitCode := 0, stdout := w.help command, files := w.files }
  | some (.run config command) => runCommand w (config.getD defaultConfigPath) command

/-- Only one command changes files. -/
theorem files_run_of_ne_init {w : Workplace} {path : String} {command : Subcommand}
    (h : command ≠ .init) : (runCommand w path command).files = w.files := by
  have hreport : ∀ result, (reportOf w.files result).files = w.files := by
    intro result
    cases result <;> rfl
  cases command with
  | init => exact absurd rfl h
  | classify description => rfl
  | plan property phases json => exact hreport _
  | verifiers property verifier llvmVersion json => exact hreport _
  | invariants artifact => exact hreport _

end PhasedInduction.CommandLine
