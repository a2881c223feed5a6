import PhasedInduction.Proofs.Course

/-!
# Failures of the generator

In the phase of the invariants, the step between the phases runs one command, and it ends as that
command does: with the sibling of the artifact if the runner reports success, and otherwise with an
error that tells the property, the phase, the command and the reason.  The error is reported to the
session it happened in.  Either way the session stays as it was, so the step can be taken again, and
it then runs the same command.

Main results:

- Theorem {lit}`RunResult.failureReason?_eq_some_iff`: the three shapes of a failure and their
  reasons.
- Theorem {lit}`Controller.after_transformations`: what any number of such steps runs and leaves.
- Theorem {lit}`Controller.transformation_ends_as_its_run`: the law of the step in the phase of the
  invariants.
-/

namespace PhasedInduction

/-! ## Runs that fail -/

namespace RunResult

/-- A result of a run is a failure, for a reason: the process did not start, or it ended without
success, with an exit code or by a signal. -/
inductive FailsFor : RunResult → String → Prop
  | notStarted (reason : String) : FailsFor (.error reason) ("failed to spawn: " ++ reason)
  | exited (result : ProcessResult) (code : Int) (hfailed : result.success = false)
      (hcode : result.exitCode = some code) :
      FailsFor (.ok result)
        ("exit status " ++ toString code ++ ": " ++ Text.trimmed result.stderr)
  | killed (result : ProcessResult) (hfailed : result.success = false)
      (hcode : result.exitCode = none) :
      FailsFor (.ok result) ("terminated by signal: " ++ Text.trimmed result.stderr)

/-- The reason of a failure is the one for its shape. -/
theorem failureReason?_eq_some_iff (r : RunResult) (reason : String) :
    failureReason? r = some reason ↔ r.FailsFor reason := by
  constructor
  · intro h
    unfold failureReason? at h
    split at h
    · cases h
      exact .notStarted _
    · next result =>
      split at h
      · cases h
      · next hsuccess =>
        have hfailed : result.success = false := Bool.eq_false_iff.mpr hsuccess
        unfold ProcessResult.status at h
        split at h
        · next code hcode =>
          cases h
          exact .exited result code hfailed hcode
        · next hcode =>
          cases h
          exact .killed result hfailed hcode
  · rintro (_ | ⟨result, code, hfailed, hcode⟩ | ⟨result, hfailed, hcode⟩)
    · rfl
    · simp [failureReason?, ProcessResult.status, hfailed, hcode]
    · simp [failureReason?, ProcessResult.status, hfailed, hcode]

end RunResult

/-- A run of the generator fails for the reason of its command, and tells which command that was. -/
theorem InvariantSettings.generate_eq_error_iff (s : InvariantSettings)
    (run : Command → RunResult) (input : Artifact) (failure : CommandFailure) :
    s.generate run input = .error failure ↔
      ∃ reason, (run (s.commandFor input)).FailsFor reason ∧
        failure = ⟨(s.commandFor input).display, reason⟩ := by
  simp only [← RunResult.failureReason?_eq_some_iff]
  cases hreason : RunResult.failureReason? (run (s.commandFor input)) with
  | none => simp [generate, hreason]
  | some reason => simp [generate, hreason, eq_comm]

/-- The last arguments of the generator are the artifact and, behind an option, its output. -/
theorem InvariantSettings.exists_options_commandFor (s : InvariantSettings) (input : Artifact) :
    ∃ options, (s.commandFor input).arguments =
      options ++ [input.path, "-o", (s.outputFor input).path] :=
  ⟨[_, _, _, _, _], rfl⟩

namespace Controller

/-! ## The step in the phase of the invariants -/

section InvariantPhase

variable {c : Controller} {s : Session} (hphase : s.phase = c.invariantPhase)
include hphase

/-- In the phase of the invariants, the generator is run once. -/
theorem commands_afterTransformation (run : Command → RunResult) (input : Artifact) :
    (c.afterTransformation run s input).commands = [c.invariants.commandFor input] := by
  rw [afterTransformation, if_pos hphase]
  cases c.invariants.generate run input <;> rfl

/-- In the phase of the invariants, the step succeeds with what the generator gives. -/
theorem answer_eq_ok_iff (run : Command → RunResult) (input output : Artifact) :
    (c.afterTransformation run s input).answer = .ok output ↔
      c.invariants.generate run input = .ok output := by
  rw [afterTransformation, if_pos hphase]
  cases c.invariants.generate run input <;> simp

/-- In the phase of the invariants, a failure of the generator is the error of the step, and the
only thing that the step reports. -/
theorem exists_failure_of_error {run : Command → RunResult} {input : Artifact} {e : CampaignError}
    (h : (c.afterTransformation run s input).answer = .error e) :
    ∃ failure, c.invariants.generate run input = .error failure ∧ e = generationError s failure ∧
      (c.afterTransformation run s input).events = [.error e.message (some s.id.text)] := by
  rw [afterTransformation, if_pos hphase] at h ⊢
  cases hgenerate : c.invariants.generate run input with
  | ok output => simp [hgenerate] at h
  | error failure =>
    simp only [hgenerate, Except.error.injEq] at h
    subst h
    exact ⟨failure, rfl, rfl, rfl⟩

/-- Steps in the phase of the invariants leave the session as it is and run a command for each
artifact, whatever the runner answers. -/
theorem after_transformations (around : Surroundings) (inputs : List Artifact) :
    (c.after around s (inputs.map .afterTransformation)).1 = s ∧
      (c.after around s (inputs.map .afterTransformation)).2.commands =
        around.commands ++ inputs.map c.invariants.commandFor := by
  induction inputs generalizing around with
  | nil => exact ⟨rfl, (List.append_nil _).symm⟩
  | cons input inputs ih =>
    have hstate : (c.perform around.run s (.afterTransformation input)).state = s :=
      c.state_perform around.run s (.afterTransformation input)
    have hcommands : (c.perform around.run s (.afterTransformation input)).commands =
        [c.invariants.commandFor input] :=
      commands_afterTransformation hphase around.run input
    obtain ⟨hlast, hran⟩ := ih (around.absorb (c.perform around.run s (.afterTransformation input)))
    rw [List.map_cons, after, Surroundings.after, hstate]
    refine ⟨hlast, ?_⟩
    rw [hran, Surroundings.absorb, hcommands, List.map_cons, List.append_assoc,
      List.singleton_append]

end InvariantPhase

/-! ## The law of the step -/

/-- In a usable configuration, an artifact has one command of the generator, which ends with the
artifact, an option and the output.  In the phase of the invariants, the step between the phases
runs exactly this command.  It succeeds if and only if the runner reports success, whatever the exit
code, and then with the output.  Otherwise its error names the property and the phase of the
session, the command, and the reason of the failure, and it is reported as the only event, which
belongs to this session alone.  In either case the session stays as it is, so taking the step again
and again runs the same command. -/
theorem transformation_ends_as_its_run {config : Config} (hvalid : config.validate = .ok ()) :
    ∃ controller, ofConfig config = .ok controller ∧
      ∀ input : Artifact, ∃ (command : Command) (options : List String),
        let output := input.withReplacedExtension config.invariants.outputSuffix
        command.program = config.invariants.program ∧
          command.arguments = options ++ [input.path, "-o", output.path] ∧
          ∀ (around : Surroundings) (s : Session), s.phase.number = config.invariants.phase →
            let step := controller.afterTransformation around.run s input
            step.commands = [command] ∧ step.state = s ∧
              ((∃ artifact, step.answer = .ok artifact) ↔
                ∃ result, around.run command = .ok result ∧ result.success = true) ∧
              (∀ artifact, step.answer = .ok artifact → artifact = output) ∧
              (∀ e, step.answer = .error e →
                ∃ reason, (around.run command).FailsFor reason ∧
                  e = .invariantGenerationFailed s.property.display s.phase.number
                    command.display reason ∧
                  let event := Event.error e.message (some s.id.text)
                  step.events = [event] ∧
                    (∀ id, event.belongsTo id = true ↔ id = s.id) ∧
                    (around.absorb step).bus = around.bus.map fun bus => (bus.emit event).2) ∧
              ∀ n,
                let again := controller.after around s (.replicate n (.afterTransformation input))
                again.1 = s ∧ again.2.commands = around.commands ++ .replicate n command := by
  obtain ⟨controller, hcontroller⟩ := exists_ofConfig hvalid
  obtain ⟨-, hnumber, -, hsettings, -⟩ := ofConfig_eq_ok_iff.mp hcontroller
  refine ⟨controller, hcontroller, ?_⟩
  intro input
  obtain ⟨options, harguments⟩ := config.invariants.exists_options_commandFor input
  refine ⟨config.invariants.commandFor input, options, rfl, harguments, ?_⟩
  intro around s hdue step
  have hphase : s.phase = controller.invariantPhase :=
    Phase.ext_toNat (congrArg UInt32.toNat (hdue.trans hnumber.symm))
  rw [← hsettings]
  refine ⟨commands_afterTransformation hphase around.run input,
    controller.state_afterTransformation around.run s input, ?_, ?_, ?_, ?_⟩
  · simp only [step, answer_eq_ok_iff hphase, InvariantSettings.generate_eq_ok_iff]
    exact ⟨fun ⟨_, hsuccess, _⟩ => hsuccess, fun hsuccess => ⟨_, hsuccess, rfl⟩⟩
  · intro artifact hartifact
    rw [answer_eq_ok_iff hphase, InvariantSettings.generate_eq_ok_iff] at hartifact
    exact hartifact.2
  · intro e herror
    obtain ⟨failure, hgenerate, rfl, hevents⟩ := exists_failure_of_error hphase herror
    obtain ⟨reason, hreason, rfl⟩ :=
      (controller.invariants.generate_eq_error_iff _ _ _).mp hgenerate
    refine ⟨reason, hreason, rfl, hevents, ?_, ?_⟩
    · intro id
      rw [Event.belongsTo_error_text_iff]
      exact eq_comm
    · simp only [Surroundings.absorb, step, hevents]
      rfl
  · intro n again
    have hrun := after_transformations hphase around (List.replicate n input)
    rwa [List.map_replicate, List.map_replicate] at hrun

/-- A generator that does not start, then ends with code 3, and then reports success in spite of the
same code: the two failures are told apart, the third run gives the output, and all three ran the
same command. -/
theorem transformation_ends_as_its_run_at_third :
    let failed : ProcessResult := ⟨some 3, false, "", "crab: \n"⟩
    let around : Surroundings :=
      { runner := .scripted [.error "not found", .ok failed, .ok { failed with success := true }]
        bus := some .standard }
    let s := (Session.opened ⟨7⟩ ⟨[.termination]⟩).startingAt ⟨2, by decide⟩
    let input : Artifact := ⟨"main.bc"⟩
    ({} : Config).validate = .ok () ∧ s.phase.number = ({} : Config).invariants.phase ∧
      ∃ controller command, ofConfig {} = .ok controller ∧
        let answer (earlier : List Command) :=
          (controller.afterTransformation { around with commands := earlier }.run s input).answer
        let failure (reason : String) : CampaignError :=
          .invariantGenerationFailed "termination" 2 (Command.display command) reason
        answer [] = .error (failure "failed to spawn: not found") ∧
          answer [command] = .error (failure "exit status 3: crab:") ∧
          answer [command, command] = .ok ⟨"main-inv.bc"⟩ ∧
          (controller.after around s (.replicate 3 (.afterTransformation input))).2.commands =
            [command, command, command] := by
  intro failed around s input
  obtain ⟨controller, hcontroller, hlaw⟩ := transformation_ends_as_its_run Config.validate_default
  obtain ⟨command, options, -, -, hends⟩ := hlaw input
  refine ⟨Config.validate_default, rfl, controller, command, hcontroller, ?_⟩
  intro answer failure
  have hfails (earlier : List Command) (reason : String)
      (hrun : RunResult.failureReason? (around.runner earlier command) = some reason) :
      answer earlier = .error (failure reason) := by
    obtain ⟨-, -, hsuccess, -, herror, -⟩ := hends { around with commands := earlier } s rfl
    cases hanswer : answer earlier with
    | ok artifact =>
      obtain ⟨result, hok, htrue⟩ := hsuccess.mp ⟨artifact, hanswer⟩
      have hnone : RunResult.failureReason? (around.runner earlier command) = none := by
        rw [show around.runner earlier command = .ok result from hok]
        simp [RunResult.failureReason?, htrue]
      rw [hnone] at hrun
      cases hrun
    | error e =>
      obtain ⟨other, hother, rfl, -⟩ := herror e hanswer
      rw [← RunResult.failureReason?_eq_some_iff] at hother
      obtain rfl : reason = other := Option.some.inj (hrun.symm.trans hother)
      rfl
  have hexit : RunResult.failureReason? (.ok failed) = some "exit status 3: crab:" := by
    decide +kernel
  refine ⟨hfails [] _ rfl, hfails [command] _ hexit, ?_, ?_⟩
  · obtain ⟨-, -, hsuccess, houtput, -⟩ :=
      hends { around with commands := [command, command] } s rfl
    obtain ⟨artifact, hanswer⟩ := hsuccess.mpr ⟨_, rfl, rfl⟩
    have hname : input.withReplacedExtension "-inv.bc" = ⟨"main-inv.bc"⟩ := by decide +kernel
    exact hanswer.trans (congrArg Except.ok ((houtput artifact hanswer).trans hname))
  · obtain ⟨-, -, -, -, -, hagain⟩ := hends around s rfl
    exact (hagain 3).2

end Controller

end PhasedInduction
