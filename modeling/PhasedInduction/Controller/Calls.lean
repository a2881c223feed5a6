import PhasedInduction.Controller.Basic

/-!
# Calls of a controller

The operations of a controller on one session as data, and runs of many of them.  Each
call is answered under what the calls before it left: the session they moved on, and the
commands they ran.

Main results:

- Theorem {lit}`Controller.id_perform` and {lit}`Controller.property_perform`: no call changes the
  identifier or the property of a session.
-/

namespace PhasedInduction.Controller

/-- An operation of a controller on a session. -/
inductive Call where
  | beforeSlicing
  | passesFor (phase : Phase) (property : Classifier)
  | schedule (property : Classifier) (phases : UInt32)
  | plan (verifier : VerifierConfig)
  | afterSlicing
  | afterTransformation (input : Artifact)
  | recordOutcome (verifier : VerifierConfig) (outcome : VerifierOutcome)
      (watchdog : WatchdogReport)
deriving DecidableEq, Repr

/-- What a call answers. -/
inductive Answer where
  | passes (passes : PassList)
  | schedule (entries : List (Phase × PassList))
  | plan (plan : VerifierPlan)
  | artifact (result : Except CampaignError Artifact)
  | signal (raised : Option FailureSignal)
deriving Repr

/-- Carry out a call. -/
def perform (c : Controller) (run : Command → RunResult) (s : Session) :
    Call → Step Session Answer
  | .beforeSlicing => .query s (.passes (c.beforeSlicing s))
  | .passesFor phase property => .query s (.passes (c.passesFor phase property))
  | .schedule property phases => .query s (.schedule (c.schedule property phases))
  | .plan verifier => .query s (.plan (c.plan s verifier))
  | .afterSlicing => (c.afterSlicing s).mapAnswer .passes
  | .afterTransformation input => (c.afterTransformation run s input).mapAnswer .artifact
  | .recordOutcome verifier outcome watchdog =>
    (c.recordOutcome s verifier outcome watchdog).mapAnswer .signal

/-- No call changes the identifier of a session. -/
@[simp]
theorem id_perform (c : Controller) (run : Command → RunResult) (s : Session) (call : Call) :
    (c.perform run s call).state.id = s.id := by
  cases call with
  | afterTransformation input => simp [perform, Step.mapAnswer]
  | _ => rfl

/-- No call changes the property of a session. -/
@[simp]
theorem property_perform (c : Controller) (run : Command → RunResult) (s : Session)
    (call : Call) : (c.perform run s call).state.property = s.property := by
  cases call with
  | afterTransformation input => simp [perform, Step.mapAnswer]
  | _ => rfl

/-! ## Runs -/

/-- The steps of a run, one for each call. -/
abbrev steps (c : Controller) (around : Surroundings) (s : Session) (calls : List Call) :
    List (Step Session Answer) :=
  around.steps c.perform s calls

/-- The session and its surroundings after a run. -/
abbrev after (c : Controller) (around : Surroundings) (s : Session) (calls : List Call) :
    Session × Surroundings :=
  around.after c.perform s calls

end PhasedInduction.Controller
