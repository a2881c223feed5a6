import PhasedInduction.Fanout
import PhasedInduction.Invariants
import PhasedInduction.Selection
import PhasedInduction.Session
import PhasedInduction.Surroundings

/-!
# Phase controllers

A controller holds the policy of a campaign: which passes run, when invariants are
generated, and how many verifier runs are planned.  The phase and the signals belong to
the sessions, which a controller moves on step by step.

Main results:

- Theorem {lit}`Controller.ofConfig_eq_ok_iff`: which configurations have a controller.
- Theorem {lit}`Controller.exists_ofConfig`: every usable configuration has one.
- Theorem {lit}`Controller.state_afterTransformation`: the step between the phases leaves
  the session as it is.
- Theorem {lit}`Controller.afterTransformation_of_ne`: outside the phase of the invariants
  nothing happens.
-/

namespace PhasedInduction

/-- The policy of a campaign. -/
structure Controller where
  selector : Selector
  invariants : InvariantSettings
  invariantPhase : Phase
  fanout : FanoutSettings
deriving DecidableEq, Repr

namespace Controller

/-- The controller of a usable configuration. -/
def ofConfig (c : Config) : Except CampaignError Controller :=
  match c.validate with
  | .error e => .error e
  | .ok () =>
    match Phase.ofNumber c.invariants.phase with
    | .error e => .error (.core e)
    | .ok invariantPhase => .ok ⟨.ofConfig c, c.invariants, invariantPhase, c.fanout⟩

/-- A configuration has a controller exactly when it has no fault; the controller keeps
its settings and its phase for the invariants. -/
theorem ofConfig_eq_ok_iff {c : Config} {controller : Controller} :
    ofConfig c = .ok controller ↔
      c.fault? = none ∧ controller.invariantPhase.number = c.invariants.phase ∧
        controller.selector = .ofConfig c ∧ controller.invariants = c.invariants ∧
        controller.fanout = c.fanout := by
  unfold ofConfig Config.validate
  obtain ⟨selector, invariants, invariantPhase, fanout⟩ := controller
  cases hf : c.fault? with
  | some fault => simp
  | none =>
    have hne : c.invariants.phase ≠ 0 := by
      intro h
      simp [Config.fault?, h] at hf
    cases hp : Phase.ofNumber c.invariants.phase with
    | error e => simp [Phase.ofNumber, hne] at hp
    | ok phase =>
      have hphase := Phase.ofNumber_eq_ok_iff.1 hp
      simp only [Except.ok.injEq, mk.injEq, true_and]
      constructor
      · rintro ⟨rfl, rfl, rfl, rfl⟩
        exact ⟨hphase, rfl, rfl, rfl⟩
      · rintro ⟨h, rfl, rfl, rfl⟩
        refine ⟨rfl, rfl, ?_, rfl⟩
        exact Phase.ext_toNat (by simp [Phase.toNat, hphase, h])

/-- A usable configuration has a controller. -/
theorem exists_ofConfig {config : Config} (hvalid : config.validate = .ok ()) :
    ∃ controller, ofConfig config = .ok controller := by
  have hfault : config.fault? = none := config.validate_eq_ok_iff.1 hvalid
  have hphase : config.invariants.phase ≠ 0 := by
    intro h
    simp [Config.fault?, h] at hfault
  exact ⟨⟨.ofConfig config, config.invariants, ⟨config.invariants.phase, hphase⟩, config.fanout⟩,
    ofConfig_eq_ok_iff.2 ⟨hfault, rfl, rfl, rfl, rfl⟩⟩

/-! ## Questions -/

/-- The passes before slicing. -/
def beforeSlicing (c : Controller) (s : Session) : PassList :=
  c.selector.preSlicing s.property.classifier

/-- The passes after slicing for a phase. -/
def passesFor (c : Controller) (phase : Phase) (p : Classifier) : PassList :=
  c.selector.postSlicing phase p

/-- The passes after slicing for the first phases. -/
def schedule (c : Controller) (p : Classifier) (phases : UInt32) : List (Phase × PassList) :=
  c.selector.schedule p phases

/-- The verifier runs that a session gets. -/
def plan (c : Controller) (s : Session) (verifier : VerifierConfig) : VerifierPlan :=
  .forProperty s.property.classifier verifier c.fanout

/-! ## Steps -/

/-- Open a session at the first phase. -/
def start (_ : Controller) (id : SessionId) (property : Property) : Step Session Unit where
  answer := ()
  state := .opened id property
  events := [.sessionStarted id property.display]

/-- Select the passes of the phase and move on to the next one. -/
def afterSlicing (c : Controller) (s : Session) : Step Session PassList :=
  let passes := c.passesFor s.phase s.property.classifier
  { answer := passes
    state := s.advance
    events := [.phaseAdvanced s.id s.phase.number s.advance.phase.number passes.names] }

/-- What a failed run of the generator means for a session. -/
def generationError (s : Session) (failure : CommandFailure) : CampaignError :=
  .invariantGenerationFailed s.property.display s.phase.number failure.command failure.reason

/-- Generate invariants for an artifact if the session is in the phase for that.  In any
other phase the artifact is handed back. -/
def afterTransformation (c : Controller) (run : Command → RunResult) (s : Session)
    (input : Artifact) : Step Session (Except CampaignError Artifact) :=
  if s.phase = c.invariantPhase then
    let commands := [c.invariants.commandFor input]
    match c.invariants.generate run input with
    | .ok output =>
      { answer := .ok output
        state := s
        events := [.invariantsGenerated s.id s.phase.number input.path output.path]
        commands }
    | .error failure =>
      let error := generationError s failure
      { answer := .error error
        state := s
        events := [.error error.message (some s.id.text)]
        commands }
  else .query s (.ok input)

/-- Take a finished verifier run into account. -/
def recordOutcome (_ : Controller) (s : Session) (verifier : VerifierConfig)
    (outcome : VerifierOutcome) (watchdog : WatchdogReport) :
    Step Session (Option FailureSignal) :=
  let (raised, state) := s.recordOutcome verifier outcome watchdog
  { answer := raised
    state
    events := raised.toList.map fun signal => .signalRaised s.id signal.name verifier.name }

/-- The step between the phases leaves the session as it is. -/
@[simp]
theorem state_afterTransformation (c : Controller) (run : Command → RunResult) (s : Session)
    (input : Artifact) : (c.afterTransformation run s input).state = s := by
  unfold afterTransformation
  split
  · split <;> rfl
  · rfl

/-- Outside the phase of the invariants nothing happens. -/
theorem afterTransformation_of_ne {c : Controller} {s : Session}
    (h : s.phase ≠ c.invariantPhase) (run : Command → RunResult) (input : Artifact) :
    c.afterTransformation run s input = .query s (.ok input) := by
  simp [afterTransformation, h]

end Controller

end PhasedInduction
