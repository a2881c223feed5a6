import Mathlib.Logic.Function.Iterate
import PhasedInduction.Controller.Calls

/-!
# The course of a session

What a run of calls makes of a session depends on the calls alone.  The controller, the
runner and the commands that ran before decide answers, but the phase counts the calls
that advance, and the signals remember whether an outcome showed threads.

Main results:

- Theorem {lit}`Controller.state_perform`: a call moves a session as the call says, whoever
  answers it.
- Theorem {lit}`Controller.state_after`: a run moves a session by its calls one after the
  other.
- Theorem {lit}`Controller.answer_at_recordOutcome`: only the first outcome that shows
  threads raises the signal.
- Theorem {lit}`Controller.course_of_calls`: the law of a session in a usable configuration.
-/

namespace PhasedInduction

/-- Going on by a number of phases adds that number, up to the largest one. -/
theorem Phase.toNat_iterate_next (phase : Phase) (n : Nat) :
    (Phase.next^[n] phase).toNat = min (phase.toNat + n) (UInt32.size - 1) := by
  induction n generalizing phase with
  | zero =>
    have hle := phase.toNat_le
    rw [Function.iterate_zero_apply]
    omega
  | succ n ih =>
    rw [Function.iterate_succ_apply, ih, Phase.toNat_next]
    omega

namespace Controller

/-! ## What a call does to a session -/

/-- Whether a call moves its session on to the next phase. -/
def Call.advances : Call → Bool
  | afterSlicing => true
  | _ => false

/-- Whether a call records an outcome that shows threads. -/
def Call.showsThreads : Call → Bool
  | recordOutcome _ outcome _ => outcome.outcomeClass = .threadingUnsupported
  | _ => false

/-- The session after a call. -/
def Call.move (s : Session) : Call → Session
  | afterSlicing => s.advance
  | recordOutcome verifier outcome watchdog => (s.recordOutcome verifier outcome watchdog).2
  | _ => s

/-- A call moves a session as the call says, whoever answers it. -/
theorem state_perform (c : Controller) (run : Command → RunResult) (s : Session) (call : Call) :
    (c.perform run s call).state = call.move s := by
  cases call with
  | afterTransformation input => exact c.state_afterTransformation run s input
  | _ => rfl

theorem Call.phase_move (s : Session) (call : Call) :
    (call.move s).phase = if call.advances then s.phase.next else s.phase := by
  cases call <;> rfl

theorem Call.hitThreads_move (s : Session) (call : Call) :
    (call.move s).hitThreads = (s.hitThreads || call.showsThreads) := by
  cases call with
  | recordOutcome verifier outcome watchdog =>
    exact s.hitThreads_recordOutcome verifier outcome watchdog
  | _ => exact (Bool.or_false _).symm

@[simp]
theorem Call.id_move (s : Session) (call : Call) : (call.move s).id = s.id := by
  cases call <;> rfl

@[simp]
theorem Call.property_move (s : Session) (call : Call) :
    (call.move s).property = s.property := by
  cases call <;> rfl

/-! ## What a run does to a session -/

/-- A run moves a session by its calls one after the other. -/
theorem state_after (c : Controller) (around : Surroundings) (s : Session) (calls : List Call) :
    (c.after around s calls).1 = calls.foldl Call.move s := by
  induction calls generalizing around s with
  | nil => rfl
  | cons call calls ih =>
    rw [List.foldl_cons, ← state_perform c around.run s call]
    exact ih _ _

/-- A run moves its session on by as many phases as it has calls that advance. -/
theorem phase_after (c : Controller) (around : Surroundings) (s : Session) (calls : List Call) :
    (c.after around s calls).1.phase = Phase.next^[calls.countP Call.advances] s.phase := by
  rw [state_after]
  induction calls generalizing s with
  | nil => rfl
  | cons call calls ih =>
    rw [List.foldl_cons, ih, Call.phase_move, List.countP_cons]
    cases call.advances with
    | true => exact (Function.iterate_succ_apply _ _ _).symm
    | false => rfl

/-- Threads are hit after a run if they were before or if an outcome showed them. -/
theorem hitThreads_after (c : Controller) (around : Surroundings) (s : Session)
    (calls : List Call) :
    (c.after around s calls).1.hitThreads = (s.hitThreads || calls.any Call.showsThreads) := by
  rw [state_after]
  induction calls generalizing s with
  | nil => exact (Bool.or_false _).symm
  | cons call calls ih =>
    rw [List.foldl_cons, ih, Call.hitThreads_move, List.any_cons, Bool.or_assoc]

/-- What no call changes stays the same in a run. -/
theorem after_of_forall_move {α : Type} {f : Session → α}
    (hmove : ∀ s call, f (Call.move s call) = f s) (c : Controller) (around : Surroundings)
    (s : Session) (calls : List Call) : f (c.after around s calls).1 = f s := by
  rw [state_after]
  induction calls generalizing s with
  | nil => rfl
  | cons call calls ih => rw [List.foldl_cons, ih, hmove]

@[simp]
theorem id_after (c : Controller) (around : Surroundings) (s : Session) (calls : List Call) :
    (c.after around s calls).1.id = s.id :=
  after_of_forall_move Call.id_move c around s calls

@[simp]
theorem property_after (c : Controller) (around : Surroundings) (s : Session)
    (calls : List Call) : (c.after around s calls).1.property = s.property :=
  after_of_forall_move Call.property_move c around s calls

/-- Only the first outcome that shows threads raises the signal. -/
theorem answer_at_recordOutcome (c : Controller) (around : Surroundings) (s : Session)
    (before rest : List Call) (verifier : VerifierConfig) (outcome : VerifierOutcome)
    (watchdog : WatchdogReport) :
    ((c.steps around s (before ++ .recordOutcome verifier outcome watchdog :: rest))[
        before.length]?).map Step.answer =
      some (.signal
        (if outcome.outcomeClass = .threadingUnsupported ∧ s.hitThreads = false ∧
            ∀ call ∈ before, call.showsThreads = false
          then some .hitThreads else none)) := by
  have hraised := (c.after around s before).1.recordOutcome_fst verifier outcome watchdog
  rw [hitThreads_after] at hraised
  rw [Surroundings.getElem?_steps]
  simp only [Option.map_some, perform, Step.mapAnswer, recordOutcome, hraised, Bool.or_eq_false_iff,
    List.any_eq_false, Bool.not_eq_true]

/-! ## The law of a session -/

/-- In a usable configuration, a session that was opened at some phase is at every moment
of a run as many phases further as there were calls that advance, up to the largest
number.  Threads count as hit exactly if an outcome showed them, which the first such
outcome reports and no other one.  The identifier and the property stay. -/
theorem course_of_calls {config : Config} (hvalid : config.validate = .ok ()) :
    ∃ controller, ofConfig config = .ok controller ∧
      ∀ (id : SessionId) (property : Property) (first : Phase) (around : Surroundings)
        (calls : List Call),
        let opened := (Session.opened id property).startingAt first
        let reached := (controller.after around opened calls).1
        reached.phase.toNat =
            min (first.toNat + calls.countP Call.advances) (UInt32.size - 1) ∧
          reached.phase.toNat ≠ 0 ∧
          (∀ more, reached.phase.toNat ≤
            (controller.after around opened (calls ++ more)).1.phase.toNat) ∧
          (reached.hitThreads = true ↔ ∃ call ∈ calls, call.showsThreads = true) ∧
          (∀ before rest verifier outcome watchdog,
            calls = before ++ .recordOutcome verifier outcome watchdog :: rest →
            ((controller.steps around opened calls)[before.length]?).map Step.answer =
              some (.signal
                (if outcome.outcomeClass = .threadingUnsupported ∧
                    ∀ call ∈ before, call.showsThreads = false
                  then some .hitThreads else none))) ∧
          reached.id = id ∧ reached.property = property := by
  obtain ⟨controller, hcontroller⟩ := exists_ofConfig hvalid
  refine ⟨controller, hcontroller, fun id property first around calls => ?_⟩
  intro opened reached
  have hphase (calls : List Call) : (controller.after around opened calls).1.phase.toNat =
      min (first.toNat + calls.countP Call.advances) (UInt32.size - 1) := by
    rw [phase_after, Phase.toNat_iterate_next]
    rfl
  refine ⟨hphase calls, ?_, ?_, ?_, ?_, ?_, ?_⟩
  · have hone := reached.phase.one_le_toNat
    omega
  · intro more
    rw [hphase calls, hphase (calls ++ more), List.countP_append]
    omega
  · rw [hitThreads_after]
    simp [opened, Session.opened, Session.startingAt, Session.hitThreads]
  · rintro before rest verifier outcome watchdog rfl
    rw [answer_at_recordOutcome]
    simp [opened, Session.opened, Session.startingAt, Session.hitThreads]
  · exact controller.id_after around opened calls
  · exact controller.property_after around opened calls

/-- One phase below the largest number, two calls that advance move a session on by one
phase only, and of two outcomes that show threads only the first one is reported. -/
theorem course_of_calls_at_largest :
    ({} : Config).validate = .ok () ∧
      ∃ controller, ofConfig {} = .ok controller ∧
        let around : Surroundings := { runner := .steady fun _ => .ok .succeeded }
        let opened := (Session.opened ⟨7⟩ ⟨[.termination]⟩).startingAt ⟨4294967294, by decide⟩
        let threads : Call :=
          .recordOutcome ⟨"klee", "14", .empty, .empty⟩ ⟨.threadingUnsupported, "EPTHREAD"⟩ {}
        let calls := [.afterSlicing, threads, .afterSlicing, threads]
        (controller.after around opened calls).1.phase.toNat = 4294967295 ∧
          (controller.after around opened calls).1.hitThreads = true ∧
          ((controller.steps around opened calls)[1]?).map Step.answer =
            some (.signal (some .hitThreads)) ∧
          ((controller.steps around opened calls)[3]?).map Step.answer =
            some (.signal none) := by
  obtain ⟨controller, hcontroller, hcourse⟩ := course_of_calls Config.validate_default
  refine ⟨Config.validate_default, controller, hcontroller, ?_⟩
  intro around opened threads calls
  obtain ⟨hphase, -, -, hhit, hanswers, -⟩ :=
    hcourse ⟨7⟩ ⟨[.termination]⟩ ⟨4294967294, by decide⟩ around calls
  refine ⟨hphase, hhit.2 ⟨threads, by simp [calls], rfl⟩, ?_, ?_⟩
  · exact hanswers [.afterSlicing] [.afterSlicing, threads] _ _ _ rfl
  · exact hanswers [.afterSlicing, threads, .afterSlicing] [] _ _ _ rfl

end Controller

end PhasedInduction
