import PhasedInduction.Controller.Calls

/-!
# The tool of a host

A host compiles, slices and verifies a program, and at fixed points it asks a tool what to
do.  This tool answers by phased induction for one session.  It never runs a verifier by
itself, so what would build or judge such a run is refused as a breach of contract.

Main results:

- Theorem {lit}`Tool.answer_afterSlicing`: the base passes of the verifier come first.
- Theorem {lit}`Tool.verifier_mem_verifiers`: every planned run uses the verifier of the tool.
-/

namespace PhasedInduction

/-- A request to link the definitions of undefined functions into the program. -/
structure LinkRequest where
  libraries : List String
  /-- The functions that linking is restricted to. -/
  onlyFunctions : List String
deriving DecidableEq, Repr

/-- The request for the functions that every verifier run needs. -/
def LinkRequest.verifierSupport : LinkRequest where
  libraries := ["verifier"]
  onlyFunctions := ["__VERIFIER_assume", "__VERIFIER_assert", "__VERIFIER_assume_or_assert"]

/-- What links on behalf of a host. -/
abbrev Linker := LinkRequest → Except CampaignError Unit

/-- Phased induction for one session with one verifier. -/
structure Tool where
  controller : Controller
  session : Session
  verifier : VerifierConfig
deriving DecidableEq, Repr

namespace Tool

/-- The name by which hosts know the tool. -/
def name : String := "klee"

/-- The tool of a usable configuration, at the start of a session. -/
def start (config : Config) (id : SessionId) (property : Property)
    (verifier : VerifierConfig) : Except CampaignError (Step Tool Unit) :=
  match Controller.ofConfig config with
  | .error e => .error e
  | .ok controller =>
    .ok ((controller.start id property).mapState fun session =>
      { controller, session, verifier })

/-- The version that the verifier works on. -/
def llvmVersion (t : Tool) : String := t.verifier.llvmVersion

/-- Whether threaded code was hit. -/
def hitThreads (t : Tool) : Bool := t.session.hitThreads

/-- Refuse an operation that a host must not ask for. -/
def refuse (operation : String) : CampaignError := .contractViolation operation

/-- The tool with another environment for its verifier. -/
def withEnvironment (t : Tool) (environment : Environment) : Tool :=
  { t with verifier := { t.verifier with environment } }

/-- What is linked before verification. -/
def actionsBeforeVerification (_ : Tool) (linker : Linker) : Except CampaignError Unit :=
  linker .verifierSupport

/-- The passes before slicing. -/
def passesBeforeSlicing (t : Tool) : PassList := t.controller.beforeSlicing t.session

/-- The passes after slicing: those that the verifier always needs, and those of the phase.
The session moves on to the next phase. -/
def passesAfterSlicing (t : Tool) : Step Tool PassList :=
  ((t.controller.afterSlicing t.session).mapAnswer (t.verifier.basePasses ++ ·)).mapState
    fun session => { t with session }

/-- The step between the phases. -/
def actionsAfterSlicing (t : Tool) (run : Command → RunResult) (input : Artifact) :
    Step Tool (Except CampaignError Artifact) :=
  (t.controller.afterTransformation run t.session input).mapState
    fun session => { t with session }

/-- The planned verifier runs. -/
def verifiers (t : Tool) : List VerifierTask := (t.controller.plan t.session t.verifier).toList

/-- Take a verifier run into account that failed. -/
def verifierFailed (t : Tool) (verifier : VerifierConfig) (outcome : VerifierOutcome)
    (watchdog : WatchdogReport) : Step Tool (Option FailureSignal) :=
  (t.controller.recordOutcome t.session verifier outcome watchdog).mapState
    fun session => { t with session }

/-- The base passes of the verifier come first. -/
theorem answer_afterSlicing (t : Tool) :
    t.passesAfterSlicing.answer =
      t.verifier.basePasses ++ (t.controller.afterSlicing t.session).answer := rfl

/-- Every planned run uses the verifier of the tool. -/
theorem verifier_mem_verifiers (t : Tool) {task : VerifierTask} (h : task ∈ t.verifiers) :
    task.verifier = t.verifier := by
  obtain ⟨verifier, hverifier, rfl⟩ := VerifierPlan.eq_of_mem_tasks h
  unfold Controller.plan VerifierPlan.forProperty at hverifier
  split at hverifier
  · exact (Option.some.inj hverifier).symm
  · cases hverifier

end Tool

end PhasedInduction
