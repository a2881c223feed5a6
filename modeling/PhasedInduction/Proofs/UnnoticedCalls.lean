import Mathlib.Logic.Function.Iterate
import PhasedInduction.Proofs.Course
import PhasedInduction.Tool.Calls

/-!
# Calls that go unnoticed

A host may ask its tool for names, versions, passes before slicing and planned runs, may set
the environment, and may ask for what is always refused, as often and wherever it likes.  A
run with such calls put in answers every other call as the run without them does; the only
trace is the environment, which every planned run carries as it was set last.

Two runs are compared through one list of entries, each of which is a call of both runs or
was put into the longer one.

Main results:

- Theorem {lit}`Tool.perform_withEnvironment`: a call takes the same course in every
  environment.
- Theorem {lit}`Tool.after_allCalls`: a run with calls put in ends where the run without them
  ends, but for the environment.
- Theorem {lit}`Tool.answer_at_passesAfterSlicing`: which passes a call after slicing gives.
- Theorem {lit}`Tool.unnoticed_calls_leave_no_trace`: the law of two runs in a usable
  configuration.
-/

namespace PhasedInduction

/-- A planned run in another environment. -/
def VerifierTask.inEnvironment (task : VerifierTask) (environment : Environment) :
    VerifierTask :=
  { task with verifier := { task.verifier with environment } }

namespace VerifierPlan

/-- A plan in another environment. -/
def inEnvironment (plan : VerifierPlan) (environment : Environment) : VerifierPlan :=
  { plan with template := plan.template.map fun v => { v with environment } }

/-- The runs of a plan in another environment are its runs, each in that environment. -/
theorem tasks_inEnvironment (plan : VerifierPlan) (environment : Environment) (limit : Nat) :
    (plan.inEnvironment environment).tasks limit =
      (plan.tasks limit).map fun task => task.inEnvironment environment := by
  induction limit generalizing plan with
  | zero => rfl
  | succ limit ih =>
    obtain ⟨template, remaining, weight⟩ := plan
    by_cases hnone : remaining = 0
    · simp [tasks, next, inEnvironment, hnone]
    · cases template with
      | none => simp [tasks, next, inEnvironment, hnone]
      | some v =>
        have hrest := ih ⟨some v, remaining - 1, weight⟩
        simp only [inEnvironment, Option.map_some] at hrest
        simp only [tasks, next, inEnvironment, hnone, if_false, Option.map_some, hrest,
          List.map_cons]
        rfl

/-- Planning for a verifier in another environment gives the plan in that environment. -/
theorem forProperty_inEnvironment (p : Classifier) (v : VerifierConfig)
    (environment : Environment) (settings : FanoutSettings) :
    forProperty p { v with environment } settings =
      (forProperty p v settings).inEnvironment environment := by
  unfold forProperty
  split <;> rfl

end VerifierPlan

/-- Nothing that can be seen of a step leaves the surroundings as they are. -/
theorem Surroundings.absorb_of_silent {State Answer : Type} {step : Step State Answer}
    (hevents : step.events = []) (hcommands : step.commands = []) (around : Surroundings) :
    around.absorb step = around := by
  obtain ⟨runner, commands, bus⟩ := around
  simp only [absorb, hevents, hcommands, List.append_nil]
  cases bus <;> rfl

namespace Tool

/-! ## One call in two environments -/

/-- Whether a call goes unnoticed: it asks for what is there, sets the environment, or is
refused. -/
def Call.isUnnoticed : Call → Bool
  | name => true
  | executable => true
  | llvmVersion => true
  | setEnvironment _ => true
  | cmdline _ _ _ _ => true
  | determineResult _ _ _ _ => true
  | replayErrorParams _ => true
  | passesBeforeSlicing => true
  | verifiers => true
  | _ => false

/-- The environment after a call. -/
def Call.environment (before : Environment) : Call → Environment
  | setEnvironment environment => environment
  | _ => before

/-- The environment after calls: the one that was set last, or the one before them. -/
def environmentAfter (before : Environment) (calls : List Call) : Environment :=
  calls.foldl Call.environment before

/-- An answer in another environment: planned runs carry it, and no other answer shows it. -/
def Answer.inEnvironment (environment : Environment) : Answer → Answer
  | .tasks planned => .tasks (planned.map fun task => task.inEnvironment environment)
  | answer => answer

/-- The planned runs of a tool in another environment are its planned runs, each in that
environment. -/
theorem verifiers_withEnvironment (t : Tool) (environment : Environment) :
    (t.withEnvironment environment).verifiers =
      t.verifiers.map fun task => task.inEnvironment environment := by
  have hplan : (t.withEnvironment environment).controller.plan
        (t.withEnvironment environment).session (t.withEnvironment environment).verifier =
      (t.controller.plan t.session t.verifier).inEnvironment environment :=
    VerifierPlan.forProperty_inEnvironment _ t.verifier environment _
  rw [verifiers, hplan, VerifierPlan.toList, VerifierPlan.tasks_inEnvironment]
  rfl

/-- A call takes the same course in every environment: it answers alike, reports the same and
runs the same commands, and the tools afterwards differ in the environment at most. -/
theorem perform_withEnvironment (t : Tool) (run : Command → RunResult)
    (environment : Environment) (call : Call) :
    (t.withEnvironment environment).perform run call =
      { answer := (t.perform run call).answer.inEnvironment environment
        state := (t.perform run call).state.withEnvironment (call.environment environment)
        events := (t.perform run call).events
        commands := (t.perform run call).commands } := by
  cases call with
  | verifiers =>
    rw [perform, verifiers_withEnvironment]
    rfl
  | _ => rfl

/-- A call that goes unnoticed changes the environment at most, and nothing can be seen of
it. -/
theorem perform_of_isUnnoticed {call : Call} (h : call.isUnnoticed = true) (t : Tool)
    (run : Command → RunResult) :
    (t.perform run call).state =
        t.withEnvironment (call.environment t.verifier.environment) ∧
      (t.perform run call).events = [] ∧ (t.perform run call).commands = [] := by
  cases call with
  | actionsBeforeVerification linker => cases h
  | passesAfterSlicing => cases h
  | actionsAfterSlicing input => cases h
  | verifierFailed verifier outcome watchdog => cases h
  | _ => exact ⟨rfl, rfl, rfl⟩

/-- Only the planned runs show the environment. -/
theorem inEnvironment_of_ne {call : Call} (h : call ≠ .verifiers) (t : Tool)
    (run : Command → RunResult) (environment : Environment) :
    (t.perform run call).answer.inEnvironment environment = (t.perform run call).answer := by
  cases call with
  | verifiers => exact absurd rfl h
  | _ => rfl

/-! ## Two runs -/

/-- A call of a run, which may have been put in. -/
structure Entry where
  call : Call
  inserted : Bool

/-- The calls of the run with all entries. -/
def allCalls (entries : List Entry) : List Call := entries.map Entry.call

/-- The calls of the run without those that were put in. -/
def ownCalls (entries : List Entry) : List Call :=
  (entries.filter fun entry => !entry.inserted).map Entry.call

/-- A run with unnoticed calls put in, from another environment, ends where the run without
them ends, but for the environment; the surroundings are the same. -/
theorem after_withEnvironment {entries : List Entry}
    (h : ∀ entry ∈ entries, entry.inserted = true → entry.call.isUnnoticed = true)
    (around : Surroundings) (t : Tool) (environment : Environment) :
    after around (t.withEnvironment environment) (allCalls entries) =
      ((after around t (ownCalls entries)).1.withEnvironment
          (environmentAfter environment (allCalls entries)),
        (after around t (ownCalls entries)).2) := by
  induction entries generalizing around t environment with
  | nil => rfl
  | cons entry entries ih =>
    have hrest := ih fun e he => h e (List.mem_cons_of_mem _ he)
    obtain ⟨call, inserted⟩ := entry
    cases inserted with
    | false =>
      have hall : after around (t.withEnvironment environment)
            (call :: allCalls entries) =
          after (around.absorb (t.perform around.run call))
            ((t.perform around.run call).state.withEnvironment (call.environment environment))
            (allCalls entries) := by
        rw [after, Surroundings.after, perform_withEnvironment]
        rfl
      exact hall.trans (hrest _ _ _)
    | true =>
      obtain ⟨hstate, hevents, hcommands⟩ :=
        perform_of_isUnnoticed (h ⟨call, true⟩ List.mem_cons_self rfl)
          (t.withEnvironment environment) around.run
      have hall : after around (t.withEnvironment environment)
            (call :: allCalls entries) =
          after around (t.withEnvironment (call.environment environment))
            (allCalls entries) := by
        rw [after, Surroundings.after, hstate, Surroundings.absorb_of_silent hevents hcommands]
        rfl
      exact hall.trans (hrest _ _ _)

/-- A run with unnoticed calls put in ends where the run without them ends, but for the
environment; the surroundings are the same. -/
theorem after_allCalls {entries : List Entry}
    (h : ∀ entry ∈ entries, entry.inserted = true → entry.call.isUnnoticed = true)
    (around : Surroundings) (t : Tool) :
    after around t (allCalls entries) =
      ((after around t (ownCalls entries)).1.withEnvironment
          (environmentAfter t.verifier.environment (allCalls entries)),
        (after around t (ownCalls entries)).2) :=
  after_withEnvironment h around t t.verifier.environment

/-! ## What a run keeps -/

/-- Whether a call moves the tool on to the next phase. -/
def Call.advances : Call → Bool
  | passesAfterSlicing => true
  | _ => false

/-- A call keeps the controller, the property and all of the verifier but its environment, and
it moves on by a phase if it is one for the passes after slicing. -/
theorem perform_keeps (t : Tool) (run : Command → RunResult) (call : Call) :
    (t.perform run call).state.controller = t.controller ∧
      (t.perform run call).state.verifier =
        { t.verifier with environment := call.environment t.verifier.environment } ∧
      (t.perform run call).state.session.property = t.session.property ∧
      (t.perform run call).state.session.phase =
        if call.advances then t.session.phase.next else t.session.phase := by
  cases call with
  | actionsAfterSlicing input =>
    have hsession := t.controller.state_afterTransformation run t.session input
    exact ⟨rfl, rfl, congrArg Session.property hsession, congrArg Session.phase hsession⟩
  | _ => exact ⟨rfl, rfl, rfl, rfl⟩

/-- A run keeps the controller, the property and all of the verifier but its environment, and
it moves on by as many phases as it has calls for the passes after slicing. -/
theorem after_keeps (around : Surroundings) (t : Tool) (calls : List Call) :
    (after around t calls).1.controller = t.controller ∧
      (after around t calls).1.verifier =
        { t.verifier with environment := environmentAfter t.verifier.environment calls } ∧
      (after around t calls).1.session.property = t.session.property ∧
      (after around t calls).1.session.phase =
        Phase.next^[calls.countP Call.advances] t.session.phase := by
  induction calls generalizing around t with
  | nil => exact ⟨rfl, rfl, rfl, rfl⟩
  | cons call calls ih =>
    obtain ⟨hcontroller, hverifier, hproperty, hphase⟩ := t.perform_keeps around.run call
    obtain ⟨hcontroller', hverifier', hproperty', hphase'⟩ :=
      ih (around.absorb (t.perform around.run call)) (t.perform around.run call).state
    rw [hverifier] at hverifier'
    rw [hphase] at hphase'
    refine ⟨hcontroller'.trans hcontroller, hverifier', hproperty'.trans hproperty, ?_⟩
    refine hphase'.trans ?_
    rw [List.countP_cons]
    cases call.advances <;> rfl

/-- A call for the passes after slicing gives the base passes of the verifier and then those
of the phase, which counts such calls before it. -/
theorem answer_at_passesAfterSlicing (around : Surroundings) (t : Tool)
    (before rest : List Call) :
    ((steps around t (before ++ .passesAfterSlicing :: rest))[before.length]?).map Step.answer =
      some (.passes (t.verifier.basePasses ++
        t.controller.passesFor (Phase.next^[before.countP Call.advances] t.session.phase)
          t.session.property.classifier)) := by
  obtain ⟨hcontroller, hverifier, hproperty, hphase⟩ := after_keeps around t before
  rw [getElem?_steps, Option.map_some]
  generalize after around t before = reached at hcontroller hverifier hproperty hphase
  rw [← hcontroller, ← hproperty, ← hphase]
  have hbase : t.verifier.basePasses = reached.1.verifier.basePasses := by rw [hverifier]
  rw [hbase]
  rfl

/-- Planned runs are runs of the verifier of the tool, in the environment that was set last. -/
theorem answer_at_verifiers (around : Surroundings) (t : Tool) (before rest : List Call) :
    ∃ tasks, ((steps around t (before ++ .verifiers :: rest))[before.length]?).map Step.answer =
        some (.tasks tasks) ∧
      ∀ task ∈ tasks, task.verifier =
        { t.verifier with environment := environmentAfter t.verifier.environment before } := by
  obtain ⟨-, hverifier, -, -⟩ := after_keeps around t before
  refine ⟨(after around t before).1.verifiers, ?_, fun task htask => ?_⟩
  · rw [getElem?_steps]
    rfl
  · rw [verifier_mem_verifiers _ htask, hverifier]

/-! ## The law of two runs -/

section Places

variable {entries before rest : List Entry} {call : Call}

/-- Both runs make a call that is their own, each at its place, on tools that differ in the
environment at most and in the same surroundings. -/
theorem steps_at_own (h : ∀ entry ∈ entries, entry.inserted = true → entry.call.isUnnoticed = true)
    (hplace : entries = before ++ ⟨call, false⟩ :: rest) (around : Surroundings) (t : Tool) :
    ∃ step, (steps around t (ownCalls entries))[(ownCalls before).length]? = some step ∧
      (∃ reached run, step = perform reached run call) ∧
      (steps around t (allCalls entries))[(allCalls before).length]? =
        some { answer := step.answer.inEnvironment
                (environmentAfter t.verifier.environment (allCalls before))
               state := step.state.withEnvironment
                (call.environment (environmentAfter t.verifier.environment (allCalls before)))
               events := step.events
               commands := step.commands } := by
  subst hplace
  have hbefore := after_allCalls (fun e he => h e (List.mem_append_left _ he)) around t
  have hown : ownCalls (before ++ ⟨call, false⟩ :: rest) =
      ownCalls before ++ call :: ownCalls rest := by
    simp [ownCalls]
  have hall : allCalls (before ++ ⟨call, false⟩ :: rest) =
      allCalls before ++ call :: allCalls rest := by
    simp [allCalls]
  refine ⟨_, by rw [hown, getElem?_steps], ⟨_, _, rfl⟩, ?_⟩
  rw [hall, getElem?_steps, hbefore, perform_withEnvironment]

/-- A call that was put in leaves the session as it is, and nothing can be seen of it. -/
theorem steps_at_inserted
    (h : ∀ entry ∈ entries, entry.inserted = true → entry.call.isUnnoticed = true)
    (hplace : entries = before ++ ⟨call, true⟩ :: rest) (around : Surroundings) (t : Tool) :
    ∃ step, (steps around t (allCalls entries))[(allCalls before).length]? = some step ∧
      step.state.session = (after around t (allCalls before)).1.session ∧
      step.events = [] ∧ step.commands = [] ∧
      ∀ operation, call.refused? = some operation →
        step.answer = .refused (.contractViolation operation) := by
  subst hplace
  have hunnoticed : call.isUnnoticed = true :=
    h ⟨call, true⟩ (List.mem_append_right _ List.mem_cons_self) rfl
  have hall : allCalls (before ++ ⟨call, true⟩ :: rest) =
      allCalls before ++ call :: allCalls rest := by
    simp [allCalls]
  obtain ⟨hstate, hevents, hcommands⟩ := perform_of_isUnnoticed hunnoticed
    (after around t (allCalls before)).1 (after around t (allCalls before)).2.run
  refine ⟨_, by rw [hall, getElem?_steps], ?_, hevents, hcommands, fun operation hrefused => ?_⟩
  · rw [hstate]
    rfl
  · rw [answer_of_refused? _ _ hrefused]
    rfl

end Places

/-- In a usable configuration, let a host call its tool in any order, at any session and with
any verifier, and put in calls that go unnoticed wherever it likes.  Both runs end with the
same session and the same surroundings: the same commands ran, and the bus is the same.  Each
call of the shorter run leaves the same session in both runs, reports the same and runs the
same commands; it answers the same too, but planned runs carry the environment that was set
last.  A call that was put in changes no session and nothing can be seen of it, and what is
refused names itself.  Every call for the passes after slicing gives the base passes of the
verifier and then those of the phase. -/
theorem unnoticed_calls_leave_no_trace {config : Config} (hvalid : config.validate = .ok ()) :
    ∃ controller, Controller.ofConfig config = .ok controller ∧
      (∀ id property verifier, (start config id property verifier).map Step.state =
        .ok ⟨controller, .opened id property, verifier⟩) ∧
      ∀ (session : Session) (verifier : VerifierConfig) (around : Surroundings)
        (entries : List Entry),
        (∀ entry ∈ entries, entry.inserted = true → entry.call.isUnnoticed = true) →
        let t : Tool := ⟨controller, session, verifier⟩
        let longer := steps around t (allCalls entries)
        let shorter := steps around t (ownCalls entries)
        (after around t (allCalls entries)).1.session =
            (after around t (ownCalls entries)).1.session ∧
          (after around t (allCalls entries)).2 = (after around t (ownCalls entries)).2 ∧
          (∀ before call rest, entries = before ++ ⟨call, false⟩ :: rest →
            ∃ step step', shorter[(ownCalls before).length]? = some step ∧
              longer[(allCalls before).length]? = some step' ∧
              step'.state.session = step.state.session ∧ step'.events = step.events ∧
              step'.commands = step.commands ∧
              (call ≠ .verifiers → step'.answer = step.answer) ∧
              (call = .verifiers → step'.answer = step.answer.inEnvironment
                (environmentAfter verifier.environment (allCalls before)))) ∧
          (∀ before rest, allCalls entries = before ++ .verifiers :: rest →
            ∃ tasks, (longer[before.length]?).map Step.answer = some (.tasks tasks) ∧
              ∀ task ∈ tasks, task.verifier =
                { verifier with environment := environmentAfter verifier.environment before }) ∧
          (∀ before call rest, entries = before ++ ⟨call, true⟩ :: rest →
            ∃ step, longer[(allCalls before).length]? = some step ∧
              step.state.session = (after around t (allCalls before)).1.session ∧
              step.events = [] ∧ step.commands = [] ∧
              ∀ operation, call.refused? = some operation →
                step.answer = .refused (.contractViolation operation)) ∧
          ∀ before rest, allCalls entries = before ++ .passesAfterSlicing :: rest →
            (longer[before.length]?).map Step.answer =
              some (.passes (verifier.basePasses ++
                controller.passesFor (Phase.next^[before.countP Call.advances] session.phase)
                  session.property.classifier)) := by
  obtain ⟨controller, hcontroller⟩ := Controller.exists_ofConfig hvalid
  refine ⟨controller, hcontroller, ?_, ?_⟩
  · intro id property verifier
    rw [start, hcontroller]
    rfl
  intro session verifier around entries hinserted t longer shorter
  have hlast := after_allCalls hinserted around t
  refine ⟨?_, ?_, ?_, ?_, ?_, ?_⟩
  · rw [hlast]
    rfl
  · rw [hlast]
  · intro before call rest hplace
    obtain ⟨step, hstep, ⟨reached, run, rfl⟩, hstep'⟩ := steps_at_own hinserted hplace around t
    refine ⟨_, _, hstep, hstep', rfl, rfl, rfl, fun hne => ?_, fun _ => rfl⟩
    exact inEnvironment_of_ne hne reached run _
  · intro before rest hplace
    have hplanned := answer_at_verifiers around t before rest
    rwa [← hplace] at hplanned
  · intro before call rest hplace
    exact steps_at_inserted hinserted hplace around t
  · intro before rest hplace
    have hpasses := answer_at_passesAfterSlicing around t before rest
    rwa [← hplace] at hpasses

/-- A campaign with a failing generator in phase two: refused calls, another environment and
planned runs are put in.  The generator still runs once, the second call for the passes after
slicing still is one for phase two, and the planned runs carry the new environment. -/
theorem unnoticed_calls_leave_no_trace_in_two :
    let around : Surroundings :=
      { runner := .steady fun _ => .error "not found", bus := some EventBus.standard }
    let verifier : VerifierConfig := ⟨"klee", "14", .single ⟨"mem2reg", []⟩, .empty⟩
    let paths : Environment := .ofList [("PATH", "/opt/klee/bin")]
    let entries : List Entry := [⟨.executable, true⟩, ⟨.passesAfterSlicing, false⟩,
      ⟨.setEnvironment paths, true⟩, ⟨.actionsAfterSlicing ⟨"main.bc"⟩, false⟩,
      ⟨.verifiers, true⟩, ⟨.cmdline "klee" ["-v"] [] none, true⟩, ⟨.passesAfterSlicing, false⟩,
      ⟨.verifiers, false⟩]
    ({} : Config).validate = .ok () ∧
      (∀ entry ∈ entries, entry.inserted = true → entry.call.isUnnoticed = true) ∧
      ∃ controller, Controller.ofConfig {} = .ok controller ∧
        let t : Tool := ⟨controller, .opened ⟨7⟩ ⟨[.unreachCall]⟩, verifier⟩
        (after around t (allCalls entries)).2 =
            (after around t [.passesAfterSlicing, .actionsAfterSlicing ⟨"main.bc"⟩,
              .passesAfterSlicing, .verifiers]).2 ∧
          ((steps around t (allCalls entries))[6]?).map Step.answer =
            some (.passes (.append (.single ⟨"mem2reg", []⟩)
              (controller.passesFor ⟨2, by decide⟩ ⟨true, false, false⟩))) ∧
          ∃ tasks, ((steps around t (allCalls entries))[7]?).map Step.answer =
              some (.tasks tasks) ∧
            ∀ task ∈ tasks, task.verifier = { verifier with environment := paths } := by
  intro around verifier paths entries
  have hinserted : ∀ entry ∈ entries, entry.inserted = true → entry.call.isUnnoticed = true := by
    simp [entries, Call.isUnnoticed]
  obtain ⟨controller, hcontroller, -, hruns⟩ :=
    unnoticed_calls_leave_no_trace Config.validate_default
  obtain ⟨-, haround, -, hplanned, -, hpasses⟩ :=
    hruns (.opened ⟨7⟩ ⟨[.unreachCall]⟩) verifier around entries hinserted
  exact ⟨Config.validate_default, hinserted, controller, hcontroller, haround,
    hpasses (allCalls (entries.take 6)) [.verifiers] rfl,
    hplanned (allCalls (entries.take 7)) [] rfl⟩

end Tool

end PhasedInduction
