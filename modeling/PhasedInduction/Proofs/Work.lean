import PhasedInduction.Proofs.Course

/-!
# Work on a session

A call that was made on a session is a piece of work.  It reports at most one event, which
can be told from the call, its answer and the session before and afterwards, and which
belongs to that session alone.  When each piece of work begins where the one before it
ended, the events replay the phase and the signal of the session.

Main results:

- Theorem {lit}`Work.belongsTo_of_event?`: work reports about its own session only.
- Theorem {lit}`Controller.events_perform`: the events of a call are what its work reports.
- Theorem {lit}`Controller.leads_of_linked`: the reported moves lead from the phase before the
  work to the phase after it.
- Theorem {lit}`Controller.countP_isSignal_of_linked`: a signal is reported once, when threads
  are hit for the first time.
-/

namespace PhasedInduction

/-! ## Work on a session -/

/-- A call that was made on a session: its answer, and the session before and afterwards. -/
structure Work where
  call : Controller.Call
  before : Session
  answer : Controller.Answer
  after : Session

/-- The event that a piece of work reports, if it reports one: the passes that were handed
out when the session moved on, how the generator ended in the phase of the invariants, and
the signal that an outcome raised. -/
def Work.event? (invariantPhase : Phase) (w : Work) : Option Event :=
  match w.call, w.answer with
  | .afterSlicing, .passes passes =>
    some (.phaseAdvanced w.before.id w.before.phase.number w.after.phase.number passes.names)
  | .afterTransformation input, .artifact (.ok output) =>
    if w.before.phase = invariantPhase then
      some (.invariantsGenerated w.before.id w.before.phase.number input.path output.path)
    else none
  | .afterTransformation _, .artifact (.error failure) =>
    if w.before.phase = invariantPhase then
      some (.error failure.message (some w.before.id.text))
    else none
  | .recordOutcome verifier _ _, .signal (some signal) =>
    some (.signalRaised w.before.id signal.name verifier.name)
  | _, _ => none

/-- What work reports belongs to the session that was worked on and to no other one. -/
theorem Work.belongsTo_of_event? {w : Work} {invariantPhase : Phase} {e : Event}
    (h : w.event? invariantPhase = some e) (id : SessionId) :
    e.belongsTo id = true ↔ w.before.id = id := by
  have hnamed : e.session? = some w.before.id ∨
      ∃ message, e = .error message (some w.before.id.text) := by
    unfold event? at h
    split at h
    · cases h; exact .inl rfl
    · split at h
      · cases h; exact .inl rfl
      · cases h
    · split at h
      · cases h; exact .inr ⟨_, rfl⟩
      · cases h
    · cases h; exact .inl rfl
    · cases h
  rcases hnamed with hsession | ⟨message, rfl⟩
  · exact Event.belongsTo_iff_of_session? hsession id
  · exact Event.belongsTo_error_text_iff message w.before.id id

namespace Controller

/-- The work that a call is. -/
def workOf (c : Controller) (run : Command → RunResult) (s : Session) (call : Call) : Work :=
  let step := c.perform run s call
  ⟨call, s, step.answer, step.state⟩

/-- Recording an outcome reports the signal that it raises. -/
theorem event?_recordOutcome (c : Controller) (run : Command → RunResult) (s : Session)
    (verifier : VerifierConfig) (outcome : VerifierOutcome) (watchdog : WatchdogReport)
    (invariantPhase : Phase) :
    (c.workOf run s (.recordOutcome verifier outcome watchdog)).event? invariantPhase =
      (s.recordOutcome verifier outcome watchdog).1.map
        fun signal => .signalRaised s.id signal.name verifier.name := by
  cases hraised : (s.recordOutcome verifier outcome watchdog).1 <;>
    simp only [workOf, Work.event?, perform, Step.mapAnswer, recordOutcome, hraised,
      Option.map_none, Option.map_some]

/-- The events of a call are what its work reports. -/
theorem events_perform (c : Controller) (run : Command → RunResult) (s : Session)
    (call : Call) : (c.perform run s call).events =
      ((c.workOf run s call).event? c.invariantPhase).toList := by
  cases call with
  | afterTransformation input =>
    by_cases hphase : s.phase = c.invariantPhase
    · cases hrun : c.invariants.generate run input with
      | ok output =>
        simp [workOf, Work.event?, perform, Step.mapAnswer, afterTransformation, hphase, hrun]
      | error failure =>
        simp [workOf, Work.event?, perform, Step.mapAnswer, afterTransformation, hphase, hrun]
    · simp [workOf, Work.event?, perform, Step.mapAnswer, Step.query,
        afterTransformation_of_ne hphase, hphase]
  | recordOutcome verifier outcome watchdog =>
    rw [event?_recordOutcome, Option.toList_map]
    rfl
  | _ => rfl

/-- Work that leads from one session to another: every piece of it begins where the one
before it ended. -/
def Linked (c : Controller) : Session → List Work → Session → Prop
  | s, [], last => s = last
  | s, w :: works, last => (∃ run call, w = c.workOf run s call) ∧ c.Linked w.after works last

end Controller

/-! ## Replaying the work -/

/-- The move from one phase to another that an event reports. -/
def Event.move? : Event → Option (UInt32 × UInt32)
  | phaseAdvanced _ fromPhase toPhase _ => some (fromPhase, toPhase)
  | _ => none

/-- Whether an event reports a signal. -/
def Event.isSignal : Event → Bool
  | signalRaised _ _ _ => true
  | _ => false

/-- Moves that lead from one number to another: each begins where the one before ended. -/
def Leads : UInt32 → List (UInt32 × UInt32) → UInt32 → Prop
  | first, [], last => first = last
  | first, (start, finish) :: moves, last => start = first ∧ Leads finish moves last

namespace Controller

/-- The step between the phases reports neither a move nor a signal. -/
theorem event?_afterTransformation (c : Controller) (run : Command → RunResult) (s : Session)
    (input : Artifact) (invariantPhase : Phase) {e : Event}
    (h : (c.workOf run s (.afterTransformation input)).event? invariantPhase = some e) :
    e.move? = none ∧ e.isSignal = false := by
  cases hanswer : (c.afterTransformation run s input).answer with
  | ok output =>
    simp only [workOf, Work.event?, perform, Step.mapAnswer, hanswer] at h
    split at h
    · cases h
      exact ⟨rfl, rfl⟩
    · cases h
  | error failure =>
    simp only [workOf, Work.event?, perform, Step.mapAnswer, hanswer] at h
    split at h
    · cases h
      exact ⟨rfl, rfl⟩
    · cases h

/-- Exactly the calls that advance report a move, from the phase before to the phase
afterwards. -/
theorem move?_event?_workOf (c : Controller) (run : Command → RunResult) (s : Session)
    (call : Call) (invariantPhase : Phase) :
    ((c.workOf run s call).event? invariantPhase).bind Event.move? =
      if call.advances then some (s.phase.number, (call.move s).phase.number) else none := by
  cases call with
  | afterTransformation input =>
    cases hevent : (c.workOf run s (.afterTransformation input)).event? invariantPhase with
    | none => rfl
    | some e => exact (c.event?_afterTransformation run s input invariantPhase hevent).1
  | recordOutcome verifier outcome watchdog =>
    rw [event?_recordOutcome]
    cases (s.recordOutcome verifier outcome watchdog).1 <;> rfl
  | _ => rfl

/-- Exactly the calls that show threads in a session where none were hit report a signal. -/
theorem isSignal_event?_workOf (c : Controller) (run : Command → RunResult) (s : Session)
    (call : Call) (invariantPhase : Phase) :
    ((c.workOf run s call).event? invariantPhase).toList.countP Event.isSignal =
      (call.showsThreads && !s.hitThreads).toNat := by
  cases call with
  | afterTransformation input =>
    cases hevent : (c.workOf run s (.afterTransformation input)).event? invariantPhase with
    | none => rfl
    | some e =>
      have hquiet := (c.event?_afterTransformation run s input invariantPhase hevent).2
      simp [hquiet, Call.showsThreads]
  | recordOutcome verifier outcome watchdog =>
    rw [event?_recordOutcome, s.recordOutcome_fst verifier outcome watchdog]
    by_cases hclass : outcome.outcomeClass = .threadingUnsupported <;>
      cases s.hitThreads <;> simp [hclass, Event.isSignal, Call.showsThreads]
  | _ => rfl

/-- Work changes neither the identifier nor the property of a session. -/
theorem id_and_property_of_linked (c : Controller) {s last : Session} {works : List Work}
    (h : c.Linked s works last) : last.id = s.id ∧ last.property = s.property := by
  induction works generalizing s with
  | nil =>
    cases h
    exact ⟨rfl, rfl⟩
  | cons w works ih =>
    obtain ⟨⟨run, call, rfl⟩, hlinked⟩ := h
    obtain ⟨hid, hproperty⟩ := ih hlinked
    exact ⟨hid.trans (c.id_perform run s call), hproperty.trans (c.property_perform run s call)⟩

/-- The moves that linked work reports lead from the phase before it to the phase after it. -/
theorem leads_of_linked (c : Controller) (invariantPhase : Phase) {s last : Session}
    {works : List Work} (h : c.Linked s works last) :
    Leads s.phase.number
      ((works.filterMap (Work.event? invariantPhase)).filterMap Event.move?)
      last.phase.number := by
  induction works generalizing s with
  | nil => exact congrArg (fun s => s.phase.number) h
  | cons w works ih =>
    obtain ⟨⟨run, call, rfl⟩, hlinked⟩ := h
    have hrest := ih hlinked
    have hmove := c.move?_event?_workOf run s call invariantPhase
    have hafter : (c.workOf run s call).after = call.move s := c.state_perform run s call
    rw [hafter] at hrest
    rw [List.filterMap_filterMap] at hrest ⊢
    rw [List.filterMap_cons, hmove]
    cases hadvances : call.advances with
    | true => exact ⟨rfl, hrest⟩
    | false =>
      have hphase : (call.move s).phase = s.phase := by
        rw [Call.phase_move, hadvances]
        rfl
      rw [hphase] at hrest
      exact hrest

/-- Linked work reports a signal once if it hits threads for the first time, and else not. -/
theorem countP_isSignal_of_linked (c : Controller) (invariantPhase : Phase) {s last : Session}
    {works : List Work} (h : c.Linked s works last) :
    s.hitThreads.toNat +
        (works.filterMap (Work.event? invariantPhase)).countP Event.isSignal =
      last.hitThreads.toNat := by
  induction works generalizing s with
  | nil => exact congrArg (fun s => s.hitThreads.toNat) h
  | cons w works ih =>
    obtain ⟨⟨run, call, rfl⟩, hlinked⟩ := h
    have hrest := ih hlinked
    have hsignal := c.isSignal_event?_workOf run s call invariantPhase
    have hafter : (c.workOf run s call).after = call.move s := c.state_perform run s call
    rw [hafter, Call.hitThreads_move] at hrest
    have hcons : (c.workOf run s call :: works).filterMap (Work.event? invariantPhase) =
        ((c.workOf run s call).event? invariantPhase).toList ++
          works.filterMap (Work.event? invariantPhase) := by
      cases hevent : (c.workOf run s call).event? invariantPhase <;> simp [hevent]
    rw [hcons, List.countP_append, hsignal, ← hrest]
    cases s.hitThreads <;> cases call.showsThreads <;> simp

end Controller

end PhasedInduction
