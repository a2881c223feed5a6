import PhasedInduction.Proofs.Course

/-!
# Properties with the same kinds

Two properties may list the same kinds in another order or more often.  Nothing of that decides
anything: they have the same classes, so every question about passes and planned runs has the same
answer for both.  Two sessions that differ in such a way take the same course through every run of
calls, and only the text of the property in a report of a failure tells them apart.

Main results:

- Theorem {lit}`Property.SameKinds.classifier_eq`: the kinds decide the classes, whatever their
  order and number.
- Theorem {lit}`Controller.answer_withProperty` and {lit}`Controller.commands_withProperty`: what a
  call answers and runs for a property with the same kinds.
- Theorem {lit}`Controller.answers_withProperty`: the same for all calls of a run.
- Theorem {lit}`Controller.policy_depends_on_kinds`: the law of properties with the same kinds in a
  usable configuration.
-/

namespace PhasedInduction

/-! ## The same kinds -/

namespace Property

/-- Properties that list the same kinds, in any order and any number of times. -/
def SameKinds (p q : Property) : Prop := ∀ kind, kind ∈ p.kinds ↔ kind ∈ q.kinds

/-- Dropping repeated kinds leaves the same kinds. -/
theorem sameKinds_ofKinds (p : Property) : p.SameKinds (ofKinds p.kinds) := by
  intro kind
  exact mem_ofKinds.symm

variable {p q : Property}

theorem SameKinds.has_eq (h : p.SameKinds q) (kind : PropertyKind) : p.has kind = q.has kind := by
  have hmem := h kind
  by_cases hp : kind ∈ p.kinds
  · have hq : kind ∈ q.kinds := hmem.mp hp
    simp [has, hp, hq]
  · have hq : kind ∉ q.kinds := fun hq => hp (hmem.mpr hq)
    simp [has, hp, hq]

/-- The kinds decide the classes, whatever their order and number. -/
theorem SameKinds.classifier_eq (h : p.SameKinds q) : p.classifier = q.classifier := by
  simp only [classifier, h.has_eq]

end Property

/-! ## Sessions of such properties -/

/-- The session with another property. -/
def Session.withProperty (s : Session) (property : Property) : Session := { s with property }

/-- The error that names a property by another text, if it names one. -/
def CampaignError.about (text : String) : CampaignError → CampaignError
  | invariantGenerationFailed _ phase command reason =>
    invariantGenerationFailed text phase command reason
  | e => e

namespace Controller

/-- The answer that names a property by another text in its error, if it has one. -/
def Answer.about (text : String) : Answer → Answer
  | artifact (.error e) => artifact (.error (e.about text))
  | answer => answer

variable {q : Property}

/-- A call moves a session alike, whatever its property. -/
theorem Call.move_withProperty (s : Session) (q : Property) (call : Call) :
    call.move (s.withProperty q) = (call.move s).withProperty q := by
  cases call <;> rfl

/-- Between the phases, a session of another property gets the same artifact, or the same failure
under the text of its own property. -/
theorem afterTransformation_withProperty (c : Controller) (run : Command → RunResult) (s : Session)
    (q : Property) (input : Artifact) :
    (c.perform run (s.withProperty q) (.afterTransformation input)).answer =
        (c.perform run s (.afterTransformation input)).answer.about q.display ∧
      (c.perform run (s.withProperty q) (.afterTransformation input)).commands =
        (c.perform run s (.afterTransformation input)).commands := by
  by_cases hphase : s.phase = c.invariantPhase
  · cases hrun : c.invariants.generate run input <;>
      simp [perform, Step.mapAnswer, afterTransformation, hphase, hrun, Answer.about,
        generationError, CampaignError.about, Session.withProperty]
  · have hother : (s.withProperty q).phase ≠ c.invariantPhase := hphase
    simp [perform, Step.mapAnswer, Step.query, afterTransformation_of_ne hphase,
      afterTransformation_of_ne hother, Answer.about]

/-- A call answers alike for a property with the same kinds, but for the text of the property in
an error. -/
theorem answer_withProperty (c : Controller) (run : Command → RunResult) {s : Session}
    (h : s.property.SameKinds q) (call : Call) :
    (c.perform run (s.withProperty q) call).answer =
      (c.perform run s call).answer.about q.display := by
  have hclasses : q.classifier = s.property.classifier := h.classifier_eq.symm
  cases call with
  | beforeSlicing =>
    simp only [perform, Step.query, beforeSlicing, Session.withProperty, hclasses, Answer.about]
  | plan verifier =>
    simp only [perform, Step.query, plan, Session.withProperty, hclasses, Answer.about]
  | afterSlicing =>
    simp only [perform, Step.mapAnswer, afterSlicing, Session.withProperty, hclasses, Answer.about]
  | afterTransformation input => exact (c.afterTransformation_withProperty run s q input).1
  | _ => rfl

/-- A call runs the same commands, whatever the property of the session. -/
theorem commands_withProperty (c : Controller) (run : Command → RunResult) (s : Session)
    (q : Property) (call : Call) :
    (c.perform run (s.withProperty q) call).commands = (c.perform run s call).commands := by
  cases call with
  | afterTransformation input => exact (c.afterTransformation_withProperty run s q input).2
  | _ => rfl

/-- The calls of a run answer alike for a property with the same kinds, but for the text of the
property in an error.  The runners know the same commands, and the buses may differ. -/
theorem answers_withProperty (c : Controller) {around other : Surroundings}
    (hrunner : other.runner = around.runner) (hcommands : other.commands = around.commands)
    {s : Session} (h : s.property.SameKinds q) (calls : List Call) :
    (c.steps other (s.withProperty q) calls).map Step.answer =
      (c.steps around s calls).map fun step => step.answer.about q.display := by
  induction calls generalizing around other s with
  | nil => rfl
  | cons call calls ih =>
    have hrun : other.run = around.run := by
      rw [Surroundings.run, Surroundings.run, hrunner, hcommands]
    have hstate : (c.perform around.run (s.withProperty q) call).state =
        (c.perform around.run s call).state.withProperty q := by
      rw [state_perform, state_perform, Call.move_withProperty]
    have hkinds : (c.perform around.run s call).state.property.SameKinds q := by
      rwa [property_perform]
    have hlater : (other.absorb (c.perform around.run (s.withProperty q) call)).commands =
        (around.absorb (c.perform around.run s call)).commands := by
      simp only [Surroundings.absorb, hcommands, commands_withProperty]
    have hrest := ih (show (other.absorb _).runner = (around.absorb _).runner from hrunner) hlater
      hkinds
    rw [steps, steps, Surroundings.steps, Surroundings.steps, List.map_cons, List.map_cons, hrun,
      answer_withProperty c around.run h, hstate, hrest]

/-! ## The law of the policy -/

/-- In a usable configuration, properties that list the same kinds, in any order and any number of
times, get the same passes before slicing, the same class for the augmentation, the same passes
after the slicing of each phase, the same schedules and the same planned runs.  Sessions that
differ in nothing else get the same answers to all calls of every run, where an error names the
property of its own session. -/
theorem policy_depends_on_kinds {config : Config} (hvalid : config.validate = .ok ()) :
    ∃ controller, ofConfig config = .ok controller ∧
      ∀ p q : Property, (∀ kind, kind ∈ p.kinds ↔ kind ∈ q.kinds) →
        let selector := controller.selector
        selector.preSlicing p.classifier = selector.preSlicing q.classifier ∧
          selector.augmentationClass? p.classifier = selector.augmentationClass? q.classifier ∧
          (∀ phase, selector.postSlicing phase p.classifier =
            selector.postSlicing phase q.classifier) ∧
          (∀ phases, controller.schedule p.classifier phases =
            controller.schedule q.classifier phases) ∧
          (∀ verifier settings, VerifierPlan.forProperty p.classifier verifier settings =
            VerifierPlan.forProperty q.classifier verifier settings) ∧
          ∀ (around : Surroundings) (s : Session) (calls : List Call), s.property = p →
            (controller.steps around (s.withProperty q) calls).map Step.answer =
              (controller.steps around s calls).map fun step => step.answer.about q.display := by
  obtain ⟨controller, hcontroller⟩ := exists_ofConfig hvalid
  refine ⟨controller, hcontroller, ?_⟩
  intro p q hkinds selector
  have hclasses : p.classifier = q.classifier := Property.SameKinds.classifier_eq hkinds
  rw [hclasses]
  refine ⟨rfl, rfl, fun phase => rfl, fun phases => rfl, fun verifier settings => rfl, ?_⟩
  rintro around s calls rfl
  exact controller.answers_withProperty rfl rfl hkinds calls

/-- Memory safety and termination in the other order, and once more: the passes after slicing are
the same, and where the generator fails, the error names the property of its session. -/
theorem policy_depends_on_kinds_once_more :
    let p : Property := ⟨[.termination, .validMemsafety]⟩
    let q : Property := ⟨[.validMemsafety, .termination, .validMemsafety]⟩
    ({} : Config).validate = .ok () ∧ (∀ kind, kind ∈ p.kinds ↔ kind ∈ q.kinds) ∧
      ∃ controller, ofConfig {} = .ok controller ∧
        (∀ phase, controller.selector.postSlicing phase p.classifier =
          controller.selector.postSlicing phase q.classifier) ∧
        let around : Surroundings := { runner := .steady fun _ => .error "not found" }
        let s := (Session.opened ⟨7⟩ p).startingAt ⟨2, by decide⟩
        let calls : List Call := [.afterTransformation ⟨"main.bc"⟩, .afterSlicing]
        (controller.steps around (s.withProperty q) calls).map Step.answer =
          (controller.steps around s calls).map fun step => step.answer.about q.display := by
  intro p q
  have hkinds : ∀ kind, kind ∈ p.kinds ↔ kind ∈ q.kinds := by
    intro kind
    cases kind <;> simp [p, q]
  obtain ⟨controller, hcontroller, hsame⟩ := policy_depends_on_kinds Config.validate_default
  obtain ⟨-, -, hpasses, -, -, hanswers⟩ := hsame p q hkinds
  refine ⟨Config.validate_default, hkinds, controller, hcontroller, hpasses, ?_⟩
  intro around s calls
  exact hanswers around s calls rfl

end Controller

end PhasedInduction
