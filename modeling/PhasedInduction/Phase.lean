import PhasedInduction.Error
import PhasedInduction.Json.Basic

/-!
# Phases

A phase is the number of a slicing round.  Phases start at one and only move
forward; the largest 32-bit number is its own successor.

Main results:

- Theorem {lit}`Phase.toNat_next`: the next phase is one more, up to the largest number.
- Theorem {lit}`Phase.ofNumber_eq_ok_iff`: every number but zero is a phase.
- Theorem {lit}`Phase.ofJson?_toJson`: a phase survives being written and read.
-/

namespace PhasedInduction

/-- The number of a slicing round. -/
structure Phase where
  number : UInt32
  number_ne_zero : number ≠ 0
deriving DecidableEq, Repr

namespace Phase

/-- The first round. -/
def initial : Phase := ⟨1, by decide⟩

/-- The phase of a number; zero is refused. -/
def ofNumber (number : UInt32) : Except DomainError Phase :=
  if h : number = 0 then .error .phaseZero else .ok ⟨number, h⟩

/-- Every number but zero is a phase, and it keeps its number. -/
theorem ofNumber_eq_ok_iff {number : UInt32} {phase : Phase} :
    ofNumber number = .ok phase ↔ phase.number = number := by
  unfold ofNumber
  split
  · next h => subst h; simp [phase.number_ne_zero]
  · cases phase; simp [eq_comm]

/-- The phase as a natural number. -/
def toNat (phase : Phase) : Nat := phase.number.toNat

@[simp]
theorem toNat_initial : initial.toNat = 1 := rfl

theorem one_le_toNat (phase : Phase) : 1 ≤ phase.toNat := by
  refine Nat.one_le_iff_ne_zero.2 fun h => phase.number_ne_zero ?_
  exact UInt32.toNat_inj.1 h

theorem toNat_le (phase : Phase) : phase.toNat ≤ UInt32.size - 1 :=
  Nat.le_sub_one_of_lt phase.number.toNat_lt

theorem ext_toNat {a b : Phase} (h : a.toNat = b.toNat) : a = b := by
  cases a
  cases b
  simpa [toNat, UInt32.toNat_inj] using h

/-- The round after this one; the largest number stays where it is. -/
def next (phase : Phase) : Phase :=
  if h : phase.toNat + 1 < UInt32.size then
    ⟨UInt32.ofNatLT (phase.toNat + 1) h, fun h' => by
      have := congrArg UInt32.toNat h'
      rw [UInt32.toNat_ofNatLT] at this
      exact absurd this (Nat.succ_ne_zero _)⟩
  else phase

/-- The next phase is one more, up to the largest number. -/
@[simp]
theorem toNat_next (phase : Phase) :
    phase.next.toNat = min (phase.toNat + 1) (UInt32.size - 1) := by
  have hle := phase.toNat_le
  unfold next
  split
  · next h =>
    simp only [toNat, UInt32.toNat_ofNatLT] at h ⊢
    omega
  · next h => omega

/-- The text of a phase. -/
def display (phase : Phase) : String := toString phase.toNat

/-- A phase as its number. -/
def toJson (phase : Phase) : Json := .ofWord32 phase.number

/-- The phase of an integer in range. -/
def ofJson? (j : Json) : Option Phase :=
  j.word32?.bind fun number => (ofNumber number).toOption

/-- A phase survives being written and read. -/
@[simp]
theorem ofJson?_toJson (phase : Phase) : ofJson? phase.toJson = some phase := by
  simp [ofJson?, toJson, ofNumber_eq_ok_iff.2 rfl, Except.toOption]

end Phase

end PhasedInduction
