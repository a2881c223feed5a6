import PhasedInduction.Command
import PhasedInduction.Event.Bus

/-!
# Steps and their surroundings

A step of a state gives an answer and the state afterwards, and it says which commands
it ran and which events it reports.  The surroundings take these up: the commands become
part of the past that a runner knows, and the events go to the bus if there is one.

A run makes one call after the other.  Each call is answered in the state and in the
surroundings that the calls before it left.

Main results:

- Theorem {lit}`Surroundings.steps_append`: a run may be cut anywhere.
- Theorem {lit}`Surroundings.getElem?_steps`: the step at a place of a run.
-/

namespace PhasedInduction

/-- One step: what it answers, the state afterwards, and what can be seen of it. -/
structure Step (State Answer : Type) where
  answer : Answer
  state : State
  events : List Event := []
  commands : List Command := []
deriving Repr

namespace Step

/-- A step that only answers. -/
def query {State Answer : Type} (state : State) (answer : Answer) : Step State Answer :=
  { answer, state }

/-- A step with another answer. -/
def mapAnswer {State A B : Type} (step : Step State A) (f : A → B) : Step State B :=
  { answer := f step.answer, state := step.state, events := step.events,
    commands := step.commands }

/-- A step with another state. -/
def mapState {S T Answer : Type} (step : Step S Answer) (f : S → T) : Step T Answer :=
  { answer := step.answer, state := f step.state, events := step.events,
    commands := step.commands }

end Step

/-- Who runs the commands, which were run, and who hears of the events. -/
structure Surroundings where
  runner : Runner
  commands : List Command := []
  bus : Option EventBus := none

namespace Surroundings

/-- What answers the next command. -/
def run (s : Surroundings) : Command → RunResult := s.runner s.commands

/-- The surroundings after a step. -/
def absorb {State Answer : Type} (s : Surroundings) (step : Step State Answer) :
    Surroundings :=
  { s with
    commands := s.commands ++ step.commands
    bus := s.bus.map fun bus => bus.emitAll step.events }

theorem emitted_emitAll (bus : EventBus) (events : List Event) :
    (bus.emitAll events).emitted = bus.emitted + events.length := by
  induction events generalizing bus with
  | nil => rfl
  | cons e events ih =>
    have h : (bus.emit e).2.emitted = bus.emitted + 1 := by
      unfold EventBus.emit
      split <;> rfl
    simp only [EventBus.emitAll, List.foldl_cons, List.length_cons] at ih ⊢
    rw [ih, h]
    omega

/-! ## Runs of calls -/

section Runs

variable {State Call Answer : Type}
  (perform : (Command → RunResult) → State → Call → Step State Answer)

/-- The steps of a run, one for each call. -/
def steps : Surroundings → State → List Call → List (Step State Answer)
  | _, _, [] => []
  | around, s, call :: calls =>
    let step := perform around.run s call
    step :: steps (around.absorb step) step.state calls

/-- The state and its surroundings after a run. -/
def after : Surroundings → State → List Call → State × Surroundings
  | around, s, [] => (s, around)
  | around, s, call :: calls =>
    let step := perform around.run s call
    after (around.absorb step) step.state calls

/-- Every call of a run is answered. -/
theorem length_steps (around : Surroundings) (s : State) (calls : List Call) :
    (around.steps perform s calls).length = calls.length := by
  induction calls generalizing around s with
  | nil => rfl
  | cons call calls ih => exact congrArg Nat.succ (ih _ _)

/-- The steps of a run of two halves are those of the first half and then those of the
second one after it. -/
theorem steps_append (around : Surroundings) (s : State) (calls more : List Call) :
    around.steps perform s (calls ++ more) = around.steps perform s calls ++
      (around.after perform s calls).2.steps perform (around.after perform s calls).1 more := by
  induction calls generalizing around s with
  | nil => rfl
  | cons call calls ih => exact congrArg (List.cons _) (ih _ _)

/-- The step at a place of a run is the call there, made on what the calls before it left. -/
theorem getElem?_steps (around : Surroundings) (s : State) (before : List Call) (call : Call)
    (rest : List Call) :
    (around.steps perform s (before ++ call :: rest))[before.length]? =
      some (perform (around.after perform s before).2.run (around.after perform s before).1
        call) := by
  have hlength := length_steps perform around s before
  rw [steps_append, List.getElem?_append_right (Nat.le_of_eq hlength), hlength, Nat.sub_self,
    steps]
  rfl

end Runs

end Surroundings

end PhasedInduction
