import PhasedInduction.Proofs.Course

/-!
# Rounds and the schedule

A schedule lists the passes of the first phases without any session.  A session hands out
passes whenever it moves on, and other calls may stand between.  Both give the same passes
for the same phases, so a schedule is a preview of every run, and a campaign that is
stopped may go on in another session.

Main results:

- Theorem {lit}`Selector.scheduleFrom_append`: a schedule may be cut anywhere.
- Theorem {lit}`Controller.rounds_eq_scheduleFrom`: the rounds of a run are the schedule from the
  phase of its session on.
- Theorem {lit}`Controller.rounds_agree_with_schedule`: the law of rounds in a usable
  configuration.
-/

namespace PhasedInduction

/-- Every phase is reached from the first one. -/
theorem Phase.iterate_next_initial (phase : Phase) :
    Phase.next^[phase.toNat - 1] .initial = phase := by
  apply Phase.ext_toNat
  have hone := phase.one_le_toNat
  have hle := phase.toNat_le
  rw [Phase.toNat_iterate_next, Phase.toNat_initial]
  omega

/-! ## Cutting schedules -/

namespace Selector

/-- A schedule goes on where the first part of it ended. -/
theorem scheduleFrom_append (s : Selector) (p : Classifier) (phase : Phase) (m n : Nat) :
    s.scheduleFrom p phase (m + n) =
      s.scheduleFrom p phase m ++ s.scheduleFrom p (Phase.next^[m] phase) n := by
  induction m generalizing phase with
  | zero => rw [Nat.zero_add]; rfl
  | succ m ih =>
    rw [Nat.succ_add, scheduleFrom, ih, Function.iterate_succ_apply]
    rfl

/-- A longer schedule begins with a shorter one. -/
theorem scheduleFrom_prefix (s : Selector) (p : Classifier) (phase : Phase) {m n : Nat}
    (h : m ≤ n) : s.scheduleFrom p phase m <+: s.scheduleFrom p phase n := by
  obtain ⟨rest, rfl⟩ := Nat.exists_eq_add_of_le h
  rw [scheduleFrom_append]
  exact List.prefix_append _ _

/-- Behind the phases before a given one, a schedule from the first phase is the schedule
from the given one. -/
theorem drop_scheduleFrom_initial (s : Selector) (p : Classifier) (phase : Phase) (n : Nat) :
    (s.scheduleFrom p .initial (phase.toNat - 1 + n)).drop (phase.toNat - 1) =
      s.scheduleFrom p phase n := by
  have hlength : (s.scheduleFrom p .initial (phase.toNat - 1)).length = phase.toNat - 1 :=
    s.length_scheduleFrom p .initial (phase.toNat - 1)
  rw [scheduleFrom_append, List.drop_left' hlength, Phase.iterate_next_initial]

end Selector

namespace Controller

/-! ## Rounds of a run -/

/-- The round that a call is: the phase of its session and the passes that it handed out. -/
def round? (s : Session) (call : Call) (answer : Answer) : Option (Phase × PassList) :=
  match call, answer with
  | .afterSlicing, .passes passes => some (s.phase, passes)
  | _, _ => none

/-- The rounds among the calls of a run, in order. -/
def rounds (c : Controller) : Surroundings → Session → List Call → List (Phase × PassList)
  | _, _, [] => []
  | around, s, call :: calls =>
    let step := c.perform around.run s call
    (round? s call step.answer).toList ++ c.rounds (around.absorb step) step.state calls

/-- Exactly the calls that advance are rounds; their passes are those of the phase. -/
theorem round?_perform (c : Controller) (run : Command → RunResult) (s : Session)
    (call : Call) :
    round? s call (c.perform run s call).answer =
      if call.advances then some (s.phase, c.selector.postSlicing s.phase s.property.classifier)
      else none := by
  cases call <;> rfl

/-- The rounds of a run are the schedule from the phase of its session on, with an entry for
each call that advances. -/
theorem rounds_eq_scheduleFrom (c : Controller) (around : Surroundings) (s : Session)
    (calls : List Call) :
    c.rounds around s calls =
      c.selector.scheduleFrom s.property.classifier s.phase (calls.countP Call.advances) := by
  induction calls generalizing around s with
  | nil => rfl
  | cons call calls ih =>
    rw [rounds, ih, round?_perform, state_perform, Call.property_move, Call.phase_move,
      List.countP_cons]
    cases call.advances with
    | true => rfl
    | false => rfl

/-- The rounds of a run of two halves are those of the first half, and those of any session
for the same property that goes on at the phase reached and advances as often. -/
theorem rounds_append (c : Controller) (around around' : Surroundings) {s s' : Session}
    (calls more : List Call) {more' : List Call}
    (hproperty : s'.property = s.property)
    (hphase : s'.phase = (c.after around s calls).1.phase)
    (hcount : more'.countP Call.advances = more.countP Call.advances) :
    c.rounds around s (calls ++ more) =
      c.rounds around s calls ++ c.rounds around' s' more' := by
  rw [rounds_eq_scheduleFrom, rounds_eq_scheduleFrom, rounds_eq_scheduleFrom, hproperty, hphase,
    hcount, phase_after, List.countP_append, Selector.scheduleFrom_append]

/-! ## The law of rounds -/

/-- In a usable configuration, let a session at a phase advance a number of times, with any
other calls between.  As long as the phases stay below the largest number, its rounds are
the entries of the schedule from that phase on.  Longer schedules begin with shorter ones.
A campaign that is stopped and goes on in another session at the phase reached hands out
what the campaign without a stop does. -/
theorem rounds_agree_with_schedule {config : Config} (hvalid : config.validate = .ok ()) :
    ∃ controller, ofConfig config = .ok controller ∧
      (∀ (id : SessionId) (property : Property) (first : Phase) (around : Surroundings)
        (calls : List Call),
        let count := calls.countP Call.advances
        let rounds := controller.rounds around
          ((Session.opened id property).startingAt first) calls
        let entries := controller.schedule property.classifier
          (UInt32.ofNat (first.toNat + count - 1))
        first.toNat + count - 1 ≤ UInt32.size - 1 →
          rounds.length = count ∧ entries.length = first.toNat + count - 1 ∧
            ∀ i < count, ∃ round, rounds[i]? = some round ∧
              entries[first.toNat + i - 1]? = some round) ∧
      (∀ (p : Classifier) (m n : UInt32), m ≤ n →
        controller.schedule p m <+: controller.schedule p n) ∧
      (∀ (id id' : SessionId) (property : Property) (first : Phase)
        (around around' : Surroundings) (calls more more' : List Call),
        more'.countP Call.advances = more.countP Call.advances →
          let s := (Session.opened id property).startingAt first
          let reached := (controller.after around s calls).1.phase
          controller.rounds around s (calls ++ more) =
            controller.rounds around s calls ++
              controller.rounds around' ((Session.opened id' property).startingAt reached)
                more') := by
  obtain ⟨controller, hcontroller⟩ := exists_ofConfig hvalid
  refine ⟨controller, hcontroller, ?_, ?_, ?_⟩
  · intro id property first around calls count rounds entries hbound
    have hone := first.one_le_toNat
    have hrounds : rounds = controller.selector.scheduleFrom property.classifier first count :=
      controller.rounds_eq_scheduleFrom around _ calls
    have hphases : (UInt32.ofNat (first.toNat + count - 1)).toNat = first.toNat - 1 + count := by
      have hsize : UInt32.size = 4294967296 := rfl
      have hfits : first.toNat + count - 1 < UInt32.size := by omega
      rw [UInt32.toNat_ofNat_of_lt' hfits]
      omega
    have hentries : entries =
        controller.selector.scheduleFrom property.classifier .initial
          (first.toNat - 1 + count) := by
      rw [← hphases]
      rfl
    have hdrop : entries.drop (first.toNat - 1) = rounds := by
      rw [hentries, hrounds, Selector.drop_scheduleFrom_initial]
    have hlength : rounds.length = count := by
      rw [hrounds, Selector.length_scheduleFrom]
    refine ⟨hlength, ?_, ?_⟩
    · rw [hentries, Selector.length_scheduleFrom]
      omega
    · intro i hi
      have hi' : i < rounds.length := by rwa [hlength]
      refine ⟨rounds[i], List.getElem?_eq_getElem hi', ?_⟩
      have hplace : first.toNat + i - 1 = first.toNat - 1 + i := by omega
      rw [hplace, ← List.getElem?_drop, hdrop, List.getElem?_eq_getElem hi']
  · intro p m n hmn
    exact controller.selector.scheduleFrom_prefix p .initial (UInt32.le_iff_toNat_le.1 hmn)
  · intro id id' property first around around' calls more more' hcount s reached
    exact controller.rounds_append around around' calls more rfl rfl hcount

/-- From phase two on, two calls that advance with others between them give the second and
the third entry of the schedule. -/
theorem rounds_agree_with_schedule_from_two :
    let around : Surroundings := { runner := .steady fun _ => .error "not found" }
    let calls : List Call := [.beforeSlicing, .afterTransformation ⟨"main.bc"⟩, .afterSlicing,
      .passesFor .initial ⟨true, false, false⟩, .afterSlicing]
    ({} : Config).validate = .ok () ∧
      ∃ controller, ofConfig {} = .ok controller ∧
        let rounds := controller.rounds around
          ((Session.opened ⟨7⟩ ⟨[.unreachCall]⟩).startingAt ⟨2, by decide⟩) calls
        let entries := controller.schedule ⟨true, false, false⟩ 3
        rounds.length = 2 ∧ (∃ round, rounds[0]? = some round ∧ entries[1]? = some round) ∧
          (∃ round, rounds[1]? = some round ∧ entries[2]? = some round) ∧
          controller.schedule ⟨true, false, false⟩ 2 <+: entries := by
  intro around calls
  obtain ⟨controller, hcontroller, hrounds, hprefix, -⟩ :=
    rounds_agree_with_schedule Config.validate_default
  obtain ⟨hlength, -, hround⟩ :=
    hrounds ⟨7⟩ ⟨[.unreachCall]⟩ ⟨2, by decide⟩ around calls (by decide)
  exact ⟨Config.validate_default, controller, hcontroller, hlength, hround 0 (by decide),
    hround 1 (by decide), hprefix ⟨true, false, false⟩ 2 3 (by decide)⟩

end Controller

end PhasedInduction
