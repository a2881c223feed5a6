import PhasedInduction.Config.Basic
import PhasedInduction.Verifier

/-!
# Verifier plans

The verifier runs that are planned for a property, taken one at a time.  A
reachability property gets a number of equal runs; any other property gets none.

Main results:

- Theorem {lit}`VerifierPlan.eq_of_mem_tasks`: what a plan yields is the run of its template.
- Theorem {lit}`VerifierPlan.toNat_totalWeight`: the total weight is the sum of the weights, up to
  the largest word.
-/

namespace PhasedInduction

/-- Planned runs that have not been taken yet: equal ones of a template. -/
structure VerifierPlan where
  template : Option VerifierConfig
  remaining : Nat
  weight : UInt32
deriving DecidableEq, Repr

namespace VerifierPlan

/-- The plan without runs. -/
def empty : VerifierPlan := ⟨none, 0, 0⟩

/-- The runs planned for a property. -/
def forProperty (p : Classifier) (verifier : VerifierConfig) (settings : FanoutSettings) :
    VerifierPlan :=
  if p.reachability then ⟨some verifier, settings.variants.toNat, settings.weight⟩ else empty

/-- Take the next run, if one is left. -/
def next (plan : VerifierPlan) : Option VerifierTask × VerifierPlan :=
  if plan.remaining = 0 then (none, plan)
  else
    match plan.template with
    | none => (none, plan)
    | some verifier =>
      (some ⟨verifier, none, plan.weight⟩, { plan with remaining := plan.remaining - 1 })

/-- The number of runs left. -/
def size (plan : VerifierPlan) : Nat := plan.remaining

/-- The bounds for the number of runs left, the lower one and the upper one if there is one. -/
def sizeHint (plan : VerifierPlan) : Nat × Option Nat := (plan.remaining, some plan.remaining)

/-- A number brought down to the largest 32-bit word if it is above. -/
def clampWord (n : Nat) : UInt32 :=
  if h : n < UInt32.size then UInt32.ofNatLT n h else UInt32.ofNat (UInt32.size - 1)

/-- The product of two words, or the largest word if it does not fit. -/
def saturatingMul (a b : UInt32) : UInt32 := clampWord (a.toNat * b.toNat)

/-- The weight of all runs left, or the largest word if it does not fit. -/
def totalWeight (plan : VerifierPlan) : UInt32 :=
  saturatingMul plan.weight (clampWord plan.remaining)

/-- The first runs left, at most the given number of them. -/
def tasks (plan : VerifierPlan) : (limit : Nat) → List VerifierTask
  | 0 => []
  | limit + 1 =>
    match plan.next with
    | (some task, rest) => task :: rest.tasks limit
    | (none, _) => []

/-- All runs left. -/
def toList (plan : VerifierPlan) : List VerifierTask := plan.tasks plan.remaining

/-- What a plan yields is the run of its template with its weight. -/
theorem eq_of_mem_tasks {plan : VerifierPlan} {limit : Nat} {task : VerifierTask}
    (h : task ∈ plan.tasks limit) :
    ∃ verifier, plan.template = some verifier ∧ task = ⟨verifier, none, plan.weight⟩ := by
  induction limit generalizing plan with
  | zero => cases h
  | succ limit ih =>
    obtain ⟨template, remaining, weight⟩ := plan
    by_cases hleft : remaining = 0
    · simp [tasks, next, hleft] at h
    · cases template with
      | none => simp [tasks, next, hleft] at h
      | some verifier =>
        simp only [tasks, next, hleft, if_false, List.mem_cons] at h
        rcases h with rfl | h
        · exact ⟨verifier, rfl, rfl⟩
        · exact @ih ⟨some verifier, remaining - 1, weight⟩ h

/-- What a plan yields can be written: nothing is replayed, so there is no path to write. -/
theorem exists_mapM_toJson (plan : VerifierPlan) :
    ∃ items, plan.toList.mapM VerifierTask.toJson = .ok items := by
  refine VerifierTask.exists_mapM_toJson fun task htask => ?_
  obtain ⟨verifier, -, rfl⟩ := eq_of_mem_tasks htask
  exact fun handle hhandle => nomatch hhandle

theorem toNat_clampWord (n : Nat) : (clampWord n).toNat = min n (UInt32.size - 1) := by
  unfold clampWord
  split
  · next h => rw [UInt32.toNat_ofNatLT]; omega
  · next h =>
    have : (UInt32.ofNat (UInt32.size - 1)).toNat = UInt32.size - 1 := rfl
    omega

/-- The total weight is the sum of the weights, up to the largest word. -/
theorem toNat_totalWeight (plan : VerifierPlan) :
    plan.totalWeight.toNat = min (plan.weight.toNat * plan.remaining) (UInt32.size - 1) := by
  simp only [totalWeight, saturatingMul, toNat_clampWord]
  rcases Nat.eq_zero_or_pos plan.weight.toNat with h | h
  · simp [h]
  · rcases Nat.le_total plan.remaining (UInt32.size - 1) with hle | hle
    · rw [Nat.min_eq_left hle]
    · rw [Nat.min_eq_right hle]
      have h1 := Nat.le_mul_of_pos_left (UInt32.size - 1) h
      have h2 := Nat.mul_le_mul_left plan.weight.toNat hle
      omega

end VerifierPlan

end PhasedInduction
