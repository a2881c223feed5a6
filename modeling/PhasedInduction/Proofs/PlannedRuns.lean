import Mathlib.Data.List.ReduceOption
import PhasedInduction.Fanout

/-!
# Planned runs as they are taken

A plan is a counter with a template that may be missing.  Every plan that can be reached offers one
task, as often as its counter says: the template is there as long as the counter is not at zero.  So
a plan yields its runs and then nothing for good, its size is the number of runs that are still to
come, and its weight is their sum up to the largest word.

A scheduler plans for one property as often as it wants to, copies the plans in its hands and takes
runs from them in any order.  A plan that is copied goes on in two places that do not see each
other.

Main results:

- Theorems {lit}`VerifierPlan.Offers.next_fst` and {lit}`VerifierPlan.Offers.next_snd`: what a
  request yields, and what the plan offers afterwards.
- Theorem {lit}`VerifierPlan.Offers.answers_eq`: a plan yields what it offers and then nothing.
- Theorem {lit}`Scheduler.stemsFrom_of_mem_after`: every plan in hand is the one that was planned,
  after as many requests as it answered.
- Theorem {lit}`Scheduler.plans_yield_what_is_planned`: the law of planned runs.
- Theorem {lit}`VerifierPlan.weight_is_capped_sum`: the law of their weight.
-/

namespace PhasedInduction

namespace VerifierPlan

/-! ## Asking a plan for runs -/

/-- What a plan answers to a number of requests for the next run. -/
def answers (plan : VerifierPlan) : (requests : Nat) → List (Option VerifierTask)
  | 0 => []
  | requests + 1 => plan.next.1 :: plan.next.2.answers requests

/-- The plan after a number of requests for the next run. -/
def after (plan : VerifierPlan) : (requests : Nat) → VerifierPlan
  | 0 => plan
  | requests + 1 => plan.next.2.after requests

/-- The last one of a number of requests is made on what those before it left. -/
theorem after_succ (plan : VerifierPlan) (requests : Nat) :
    plan.after (requests + 1) = (plan.after requests).next.2 := by
  induction requests generalizing plan with
  | zero => rfl
  | succ requests ih => exact ih plan.next.2

theorem answers_succ (plan : VerifierPlan) (requests : Nat) :
    plan.answers (requests + 1) = plan.answers requests ++ [(plan.after requests).next.1] := by
  induction requests generalizing plan with
  | zero => rfl
  | succ requests ih => exact congrArg (List.cons plan.next.1) (ih plan.next.2)

/-! ## What a plan offers -/

/-- The number of runs that are planned for a property. -/
def planned (property : Classifier) (settings : FanoutSettings) : Nat :=
  if property.reachability then settings.variants.toNat else 0

/-- A plan offers a task a number of times.  Its template and its weight do not matter once the
counter is at zero. -/
structure Offers (plan : VerifierPlan) (task : VerifierTask) (left : Nat) : Prop where
  remaining_eq : plan.remaining = left
  template_eq : left ≠ 0 → plan.template = some task.verifier
  weight_eq : left ≠ 0 → plan.weight = task.weight
  replay_eq : task.replay = none

/-- A new plan offers the planned task as often as it is planned. -/
theorem offers_forProperty (property : Classifier) (verifier : VerifierConfig)
    (settings : FanoutSettings) :
    (forProperty property verifier settings).Offers ⟨verifier, none, settings.weight⟩
      (planned property settings) := by
  unfold forProperty planned
  cases property.reachability with
  | true => exact ⟨rfl, fun _ => rfl, fun _ => rfl, rfl⟩
  | false => exact ⟨rfl, fun h => absurd rfl h, fun h => absurd rfl h, rfl⟩

namespace Offers

variable {plan : VerifierPlan} {task : VerifierTask} {left : Nat} (h : plan.Offers task left)
include h

/-- The next run of a plan that offers a task: it is there unless the counter is at zero, and then
the plan stays as it is. -/
theorem next_eq :
    plan.next =
      if left = 0 then (none, plan) else (some task, { plan with remaining := left - 1 }) := by
  obtain ⟨verifier, replay, weight⟩ := task
  obtain ⟨hremaining, htemplate, hweight, rfl : replay = none⟩ := h
  by_cases hleft : left = 0
  · rw [if_pos hleft, next, if_pos (hremaining.trans hleft)]
  · rw [if_neg hleft, next, if_neg (hremaining ▸ hleft), htemplate hleft, hweight hleft, hremaining]

/-- A request yields the task as long as it is offered. -/
theorem next_fst : plan.next.1 = if left = 0 then none else some task := by
  rw [h.next_eq]
  split <;> rfl

/-- After a request the task is offered once less. -/
theorem next_snd : plan.next.2.Offers task (left - 1) := by
  rw [h.next_eq]
  split
  · next hleft =>
    subst hleft
    exact h
  · next hleft => exact ⟨rfl, fun _ => h.template_eq hleft, fun _ => h.weight_eq hleft, h.replay_eq⟩

/-- After a number of requests the task is offered as many times less. -/
theorem after (requests : Nat) : (plan.after requests).Offers task (left - requests) := by
  induction requests with
  | zero => exact h
  | succ requests ih =>
    rw [after_succ]
    exact ih.next_snd

/-- A plan yields what it offers and then nothing. -/
theorem answers_eq (requests : Nat) :
    plan.answers requests = .replicate (min requests left) (some task) ++
      .replicate (requests - left) none := by
  induction requests generalizing plan left with
  | zero => simp [answers]
  | succ requests ih =>
    rw [answers, h.next_fst, ih h.next_snd]
    cases left with
    | zero => simp [List.replicate_succ]
    | succ left =>
      rw [if_neg (Nat.succ_ne_zero left), Nat.add_sub_cancel, Nat.add_min_add_right,
        Nat.add_sub_add_right, List.replicate_succ, List.cons_append]

/-- All runs left are those that the plan offers. -/
theorem toList_eq : plan.toList = .replicate left task := by
  rw [toList, h.remaining_eq]
  induction left generalizing plan with
  | zero => rfl
  | succ left ih =>
    rw [tasks, h.next_eq, if_neg (Nat.succ_ne_zero left)]
    have hrest := h.next_snd
    rw [h.next_eq, if_neg (Nat.succ_ne_zero left)] at hrest
    exact congrArg (List.cons task) (ih hrest)

end Offers

/-! ## The weight of a plan -/

/-- The sum of the weights of tasks. -/
def weightOf : List VerifierTask → Nat
  | [] => 0
  | task :: tasks => task.weight.toNat + weightOf tasks

theorem weightOf_replicate (number : Nat) (task : VerifierTask) :
    weightOf (.replicate number task) = number * task.weight.toNat := by
  induction number with
  | zero => exact (Nat.zero_mul _).symm
  | succ number ih => rw [List.replicate_succ, weightOf, ih, Nat.succ_mul, Nat.add_comm]

/-- The total weight is the sum of the weights of all runs left, up to the largest word. -/
theorem Offers.toNat_totalWeight_eq {plan : VerifierPlan} {task : VerifierTask} {left : Nat}
    (h : plan.Offers task left) :
    plan.totalWeight.toNat = min (weightOf plan.toList) (UInt32.size - 1) := by
  rw [toNat_totalWeight, h.toList_eq, weightOf_replicate, h.remaining_eq]
  by_cases hleft : left = 0
  · simp [hleft]
  · rw [h.weight_eq hleft, Nat.mul_comm]

/-- The runs that a plan yields to any number of requests are the first ones of all runs left. -/
theorem Offers.reduceOption_answers {plan : VerifierPlan} {task : VerifierTask} {left : Nat}
    (h : plan.Offers task left) (requests : Nat) :
    (plan.answers requests).reduceOption = plan.toList.take requests := by
  rw [h.answers_eq, h.toList_eq, List.reduceOption_append, List.reduceOption_replicate_none,
    List.append_nil, List.take_replicate]
  exact List.filterMap_replicate_of_some rfl

/-- A request does not make a plan heavier. -/
theorem totalWeight_next_le (plan : VerifierPlan) :
    plan.next.2.totalWeight ≤ plan.totalWeight := by
  have hnext : plan.next.2.weight = plan.weight ∧ plan.next.2.remaining ≤ plan.remaining := by
    unfold next
    split
    · exact ⟨rfl, Nat.le_refl _⟩
    · split
      · exact ⟨rfl, Nat.le_refl _⟩
      · exact ⟨rfl, Nat.sub_le _ _⟩
  have hproduct := Nat.mul_le_mul_left plan.weight.toNat hnext.2
  rw [UInt32.le_iff_toNat_le, toNat_totalWeight, toNat_totalWeight, hnext.1]
  omega

/-- No number of requests makes a plan heavier. -/
theorem totalWeight_after_le (plan : VerifierPlan) (requests : Nat) :
    (plan.after requests).totalWeight ≤ plan.totalWeight := by
  induction requests with
  | zero => exact UInt32.le_refl _
  | succ requests ih =>
    rw [after_succ]
    exact UInt32.le_trans (totalWeight_next_le _) ih

/-- For every plan that was asked for runs any number of times, the total weight is the sum of the
weights of all runs that it still yields, up to the largest word: it is never above that sum, it is
that sum if the sum is a word, and it never grows. -/
theorem weight_is_capped_sum (property : Classifier) (verifier : VerifierConfig)
    (settings : FanoutSettings) (requests : Nat) :
    let plan := (forProperty property verifier settings).after requests
    (∀ more, (plan.answers more).reduceOption = plan.toList.take more) ∧
      plan.totalWeight.toNat = min (weightOf plan.toList) 4294967295 ∧
      plan.totalWeight.toNat ≤ weightOf plan.toList ∧
      (weightOf plan.toList ≤ 4294967295 → plan.totalWeight.toNat = weightOf plan.toList) ∧
      ∀ more, (plan.after more).totalWeight ≤ plan.totalWeight := by
  intro plan
  have hoffers := (offers_forProperty property verifier settings).after requests
  have hweight : plan.totalWeight.toNat = min (weightOf plan.toList) 4294967295 :=
    hoffers.toNat_totalWeight_eq
  refine ⟨hoffers.reduceOption_answers, hweight, ?_, ?_, plan.totalWeight_after_le⟩
  · rw [hweight]
    exact Nat.min_le_left _ _
  · intro hword
    exact hweight.trans (Nat.min_eq_left hword)

/-- More runs than a word can count weigh no more than the largest word. -/
example : (VerifierPlan.mk (some ⟨"klee", "14", .empty, .empty⟩) 4294967298 1).totalWeight =
    4294967295 := by decide

end VerifierPlan

/-! ## Schedulers -/

/-- A plan in hand, with what it answered so far.  A copy has the answers of the plan that it was
made from. -/
structure PlanInHand where
  plan : VerifierPlan
  answers : List (Option VerifierTask) := []
deriving DecidableEq, Repr

/-- The plan in hand after a request for the next run. -/
def PlanInHand.take (h : PlanInHand) : PlanInHand := ⟨h.plan.next.2, h.answers ++ [h.plan.next.1]⟩

/-- A plan in hand is a new plan after as many requests as it answered. -/
structure PlanInHand.StemsFrom (h : PlanInHand) (new : VerifierPlan) : Prop where
  plan_eq : h.plan = new.after h.answers.length
  answers_eq : h.answers = new.answers h.answers.length

/-- A request keeps the plan that a plan in hand stems from. -/
theorem PlanInHand.StemsFrom.take {h : PlanInHand} {new : VerifierPlan} (hstems : h.StemsFrom new) :
    h.take.StemsFrom new := by
  have hlength : h.take.answers.length = h.answers.length + 1 := List.length_append
  refine ⟨?_, ?_⟩
  · rw [hlength, VerifierPlan.after_succ, ← hstems.plan_eq]
    rfl
  · rw [hlength, VerifierPlan.answers_succ, ← hstems.plan_eq, ← hstems.answers_eq]
    rfl

/-- A scheduler for one property, with the plans in its hands. -/
structure Scheduler where
  property : Classifier
  verifier : VerifierConfig
  settings : FanoutSettings
  hands : List PlanInHand := []
deriving DecidableEq, Repr

namespace Scheduler

/-- What a scheduler does: it plans anew, copies a plan in hand, or asks it for the next run.  Plans
are known by their numbers in the order in which it got them. -/
inductive Action where
  | plan
  | copy (number : Nat)
  | take (number : Nat)
deriving DecidableEq, Repr

/-- What is planned for the property. -/
def newPlan (s : Scheduler) : VerifierPlan := .forProperty s.property s.verifier s.settings

/-- The scheduler after an action. -/
def perform (s : Scheduler) : Action → Scheduler
  | .plan => { s with hands := s.hands ++ [⟨s.newPlan, []⟩] }
  | .copy number => { s with hands := s.hands ++ s.hands[number]?.toList }
  | .take number => { s with hands := s.hands.modify number PlanInHand.take }

/-- The scheduler after a number of actions. -/
def after (s : Scheduler) (actions : List Action) : Scheduler := actions.foldl perform s

@[simp]
theorem newPlan_perform (s : Scheduler) (action : Action) :
    (s.perform action).newPlan = s.newPlan := by
  cases action <;> rfl

@[simp]
theorem newPlan_after (s : Scheduler) (actions : List Action) :
    (s.after actions).newPlan = s.newPlan := by
  induction actions generalizing s with
  | nil => rfl
  | cons action actions ih => exact (ih (s.perform action)).trans (s.newPlan_perform action)

/-- An action leaves every plan in hand to stem from the new plan. -/
theorem stemsFrom_of_mem_perform {s : Scheduler}
    (hs : ∀ hand ∈ s.hands, hand.StemsFrom s.newPlan) (action : Action) :
    ∀ hand ∈ (s.perform action).hands, hand.StemsFrom s.newPlan := by
  intro hand hmem
  cases action with
  | plan =>
    rcases List.mem_append.mp hmem with hold | hnew
    · exact hs hand hold
    · obtain rfl := List.mem_singleton.mp hnew
      exact ⟨rfl, rfl⟩
  | copy number =>
    rcases List.mem_append.mp hmem with hold | hnew
    · exact hs hand hold
    · exact hs hand (List.mem_of_getElem? (Option.mem_toList.mp hnew))
  | take number =>
    obtain ⟨i, hi⟩ := List.mem_iff_getElem?.mp hmem
    rw [perform, List.getElem?_modify] at hi
    obtain ⟨old, hold, rfl⟩ := Option.map_eq_some_iff.mp hi
    have hstems := hs old (List.mem_of_getElem? hold)
    split
    · exact hstems.take
    · exact hstems

/-- Every plan in hand stems from the new plan, whatever was copied and taken before. -/
theorem stemsFrom_of_mem_after {s : Scheduler}
    (hs : ∀ hand ∈ s.hands, hand.StemsFrom s.newPlan) (actions : List Action) :
    ∀ hand ∈ (s.after actions).hands, hand.StemsFrom s.newPlan := by
  induction actions generalizing s with
  | nil => exact hs
  | cons action actions ih =>
    have hstep := stemsFrom_of_mem_perform hs action
    rw [← s.newPlan_perform action] at hstep ⊢
    exact ih hstep

/-- A plan in hand is changed by requests for its own runs only. -/
theorem hands_perform_of_ne {s : Scheduler} {number : Nat} {hand : PlanInHand}
    (hhand : s.hands[number]? = some hand) {action : Action} (hne : action ≠ .take number) :
    (s.perform action).hands[number]? = some hand := by
  obtain ⟨hlt, -⟩ := List.getElem?_eq_some_iff.mp hhand
  cases action with
  | plan => rwa [perform, List.getElem?_append_left hlt]
  | copy other => rwa [perform, List.getElem?_append_left hlt]
  | take other =>
    have hother : other ≠ number := fun heq => hne (congrArg Action.take heq)
    exact (List.getElem?_modify_ne PlanInHand.take s.hands hother).trans hhand

theorem hands_after_of_not_mem {s : Scheduler} {number : Nat} {hand : PlanInHand}
    (hhand : s.hands[number]? = some hand) {actions : List Action}
    (hactions : .take number ∉ actions) :
    (s.after actions).hands[number]? = some hand := by
  induction actions generalizing s with
  | nil => exact hhand
  | cons action actions ih =>
    obtain ⟨hne, hrest⟩ := List.ne_and_not_mem_of_not_mem_cons hactions
    exact ih (hands_perform_of_ne hhand hne.symm) hrest

/-- However a scheduler plans, copies and takes, every plan in its hands has yielded the planned
task as often as it was planned and asked for, and then nothing.  From there on it yields the rest
of the planned runs and then nothing, and its size and the bounds of it are the number of these.
A template is there as long as runs are left.  Planning again gives all runs; a copy stands where
its original does, and only requests to a plan itself change it. -/
theorem plans_yield_what_is_planned (property : Classifier) (verifier : VerifierConfig)
    (settings : FanoutSettings) (actions : List Action) :
    let task : VerifierTask := ⟨verifier, none, settings.weight⟩
    let planned := if property.reachability then settings.variants.toNat else 0
    let yields (requests left : Nat) : List (Option VerifierTask) :=
      .replicate (min requests left) (some task) ++ .replicate (requests - left) none
    let s := after ⟨property, verifier, settings, []⟩ actions
    (∃ hand, (s.perform .plan).hands[s.hands.length]? = some hand ∧ hand.answers = [] ∧
        ∀ requests, hand.plan.answers requests = yields requests planned) ∧
      ∀ number hand, s.hands[number]? = some hand →
        let left := planned - hand.answers.length
        hand.answers = yields hand.answers.length planned ∧
          (∀ requests, hand.plan.answers requests = yields requests left) ∧
          hand.plan.size = left ∧ hand.plan.sizeHint = (left, some left) ∧
          hand.plan.toList = .replicate left task ∧
          (hand.plan.remaining ≠ 0 → hand.plan.template = some verifier) ∧
          (s.perform (.copy number)).hands[s.hands.length]? = some hand ∧
          ∀ more, .take number ∉ more → (s.after more).hands[number]? = some hand := by
  intro task planned yields s
  have hnew : s.newPlan.Offers task planned := by
    rw [show s.newPlan = .forProperty property verifier settings from newPlan_after _ actions]
    exact VerifierPlan.offers_forProperty property verifier settings
  refine ⟨⟨⟨s.newPlan, []⟩, List.getElem?_concat_length, rfl, hnew.answers_eq⟩, ?_⟩
  intro number hand hhand left
  have hstems : hand.StemsFrom s.newPlan := by
    rw [newPlan_after]
    exact stemsFrom_of_mem_after (by simp) actions hand (List.mem_of_getElem? hhand)
  have hoffers : hand.plan.Offers task left := by
    rw [hstems.plan_eq]
    exact hnew.after hand.answers.length
  refine ⟨?_, hoffers.answers_eq, hoffers.remaining_eq, ?_, hoffers.toList_eq, ?_, ?_, ?_⟩
  · exact hstems.answers_eq.trans (hnew.answers_eq hand.answers.length)
  · rw [VerifierPlan.sizeHint, hoffers.remaining_eq]
  · intro hremaining
    exact hoffers.template_eq (hoffers.remaining_eq ▸ hremaining)
  · rw [perform, hhand]
    exact List.getElem?_concat_length
  · intro more hmore
    exact hands_after_of_not_mem hhand hmore

/-- Of three runs, the first one is taken before a copy is made.  The copy yields the second one
after the original has yielded all three. -/
example :
    let s := after ⟨⟨true, false, false⟩, ⟨"klee", "14", .empty, .empty⟩, ⟨3, 250⟩, []⟩
      [.plan, .take 0, .copy 0, .take 0, .take 0, .take 0, .take 1]
    s.hands.map (fun hand => (hand.answers.map Option.isSome, hand.plan.size)) =
      [([true, true, true, false], 0), ([true, true], 1)] := by decide

end Scheduler

end PhasedInduction
