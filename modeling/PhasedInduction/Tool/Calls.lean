import PhasedInduction.Tool.Basic

/-!
# Calls of a tool

What a host can ask of a tool as data, and runs of many such calls.

Main results:

- Theorem {lit}`Tool.answer_of_refused?`: a refused call names itself, whatever its arguments.
-/

namespace PhasedInduction.Tool

/-- What a host can ask of a tool. -/
inductive Call where
  | name
  | executable
  | llvmVersion
  | setEnvironment (environment : Environment)
  | cmdline (executable : String) (options tasks : List String) (propertyFile : Option String)
  | determineResult (returnCode returnSignal : Int) (output : List String) (timedOut : Bool)
  | replayErrorParams (file : String)
  | actionsBeforeVerification (linker : Linker)
  | passesBeforeSlicing
  | passesAfterSlicing
  | actionsAfterSlicing (input : Artifact)
  | verifiers
  | verifierFailed (verifier : VerifierConfig) (outcome : VerifierOutcome)
      (watchdog : WatchdogReport)

/-- What a call answers. -/
inductive Answer where
  | done
  | text (text : String)
  | refused (error : CampaignError)
  | linked (request : LinkRequest) (result : Except CampaignError Unit)
  | passes (passes : PassList)
  | artifact (result : Except CampaignError Artifact)
  | tasks (tasks : List VerifierTask)
  | signal (raised : Option FailureSignal)
deriving Repr

/-- The name of an operation that is always refused. -/
def Call.refused? : Call → Option String
  | executable => some "executable"
  | cmdline _ _ _ _ => some "cmdline"
  | determineResult _ _ _ _ => some "determine_result"
  | replayErrorParams _ => some "replay_error_params"
  | _ => none

/-- Carry out a call. -/
def perform (t : Tool) (run : Command → RunResult) : Call → Step Tool Answer
  | .name => .query t (.text name)
  | .executable => .query t (.refused (refuse "executable"))
  | .llvmVersion => .query t (.text t.llvmVersion)
  | .setEnvironment environment => .query (t.withEnvironment environment) .done
  | .cmdline _ _ _ _ => .query t (.refused (refuse "cmdline"))
  | .determineResult _ _ _ _ => .query t (.refused (refuse "determine_result"))
  | .replayErrorParams _ => .query t (.refused (refuse "replay_error_params"))
  | .actionsBeforeVerification linker =>
    .query t (.linked .verifierSupport (t.actionsBeforeVerification linker))
  | .passesBeforeSlicing => .query t (.passes t.passesBeforeSlicing)
  | .passesAfterSlicing => t.passesAfterSlicing.mapAnswer .passes
  | .actionsAfterSlicing input => (t.actionsAfterSlicing run input).mapAnswer .artifact
  | .verifiers => .query t (.tasks t.verifiers)
  | .verifierFailed verifier outcome watchdog =>
    (t.verifierFailed verifier outcome watchdog).mapAnswer .signal

/-- A refused call names itself, whatever its arguments. -/
theorem answer_of_refused? (t : Tool) (run : Command → RunResult) {call : Call}
    {operation : String} (h : call.refused? = some operation) :
    t.perform run call = .query t (.refused (.contractViolation operation)) := by
  cases call <;> simp_all [Call.refused?, perform, refuse]

/-! ## Runs -/

/-- The steps of a run, one for each call. -/
abbrev steps (around : Surroundings) (t : Tool) (calls : List Call) : List (Step Tool Answer) :=
  around.steps (fun run t => t.perform run) t calls

/-- The tool and its surroundings after a run. -/
abbrev after (around : Surroundings) (t : Tool) (calls : List Call) : Tool × Surroundings :=
  around.after (fun run t => t.perform run) t calls

/-- The step at a place of a run is the call there, made on what the calls before it left. -/
theorem getElem?_steps (around : Surroundings) (t : Tool) (before : List Call) (call : Call)
    (rest : List Call) :
    (steps around t (before ++ call :: rest))[before.length]? =
      some ((after around t before).1.perform (after around t before).2.run call) :=
  around.getElem?_steps _ t before call rest

end PhasedInduction.Tool
