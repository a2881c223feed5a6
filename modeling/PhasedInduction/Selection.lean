import PhasedInduction.Config.Basic
import PhasedInduction.Pass.Basic

/-!
# Pass selection

Which passes run before and after the slicing of each phase.  What runs after slicing
has two parts: the pass of the phase (the base case in the first one, the step case in
the second, none later) and an augmentation, which is that of the first class in the
policy's priority that the property satisfies.

Main results:

- Theorem {lit}`Selector.augmentationClass?_eq_some_iff`: the chosen class is satisfied, and no
  class before it is.
- Theorem {lit}`Selector.isSelected_of_mem_postSlicing`: six kinds of passes are all that is chosen.
- Theorem {lit}`Selector.length_scheduleFrom`: a schedule has an entry for each phase.
-/

namespace PhasedInduction

/-! ## The passes -/

namespace Pass

/-- Finds the exits of the program. -/
def findExits : Pass := ⟨"find-exits", []⟩

/-- Unrolls the program for the base case, up to a number of backedges. -/
def baseCase (maxBackedgeCount : UInt32) : Pass :=
  withParam ⟨"kind-base-case", []⟩ "kind-max-backedge-count" (toString maxBackedgeCount.toNat)

/-- Prepares the program for the step case of a width. -/
def stepCase (k : UInt32) : Pass :=
  withParam ⟨"kind-step-case", []⟩ "kind-k" (toString k.toNat)

/-- Keeps functions from being optimised away for being read-only. -/
def removeReadonlyAttr : Pass := ⟨"remove-readonly-attr", []⟩

/-- Makes the program report that it does not terminate. -/
def instrumentNontermination : Pass := ⟨"instrument-nontermination", []⟩

/-- Marks the loop headers for that report. -/
def markNonterminationHeader : Pass := ⟨"instrument-nontermination-mark-header", []⟩

/-- The passes that a selection can choose. -/
inductive IsSelected : Pass → Prop
  | findExits : IsSelected findExits
  | baseCase (maxBackedgeCount : UInt32) : IsSelected (baseCase maxBackedgeCount)
  | stepCase (k : UInt32) : IsSelected (stepCase k)
  | removeReadonlyAttr : IsSelected removeReadonlyAttr
  | instrumentNontermination : IsSelected instrumentNontermination
  | markNonterminationHeader : IsSelected markNonterminationHeader

end Pass

/-! ## Selection -/

/-- What the selection depends on. -/
structure Selector where
  bounds : InductionBounds
  policy : AugmentationPolicy
deriving DecidableEq, Repr

namespace Selector

/-- The selection that a configuration asks for. -/
def ofConfig (c : Config) : Selector := ⟨c.induction, c.augmentation⟩

/-- The passes before slicing: termination needs the exits. -/
def preSlicing (_ : Selector) (p : Classifier) : PassList :=
  if p.termination then .single .findExits else .empty

/-- The passes that belong to a phase. -/
def phaseSpecific (s : Selector) (phase : Phase) : PassList :=
  if phase.number = 1 then .single (.baseCase s.bounds.maxBackedgeCount)
  else if phase.number = 2 then .single (.stepCase s.bounds.k)
  else .empty

/-- The class that decides the augmentation: the first one in the priority that the
property satisfies. -/
def augmentationClass? (s : Selector) (p : Classifier) : Option PropertyClass :=
  s.policy.priority.find? p.satisfies

/-- The chosen class is satisfied, and no class before it is. -/
theorem augmentationClass?_eq_some_iff (s : Selector) (p : Classifier) (c : PropertyClass) :
    s.augmentationClass? p = some c ↔
      p.satisfies c = true ∧ ∃ before after, s.policy.priority = before ++ c :: after ∧
        ∀ d ∈ before, p.satisfies d = false := by
  simp [augmentationClass?, List.find?_eq_some_iff_append]

/-- The passes that a class adds in every phase. -/
def augmentationFor : PropertyClass → PassList
  | .memorySafety => ⟨[.removeReadonlyAttr]⟩
  | .termination => ⟨[.instrumentNontermination, .markNonterminationHeader]⟩
  | .reachability => .empty

/-- The passes that are added in every phase. -/
def augmentation (s : Selector) (p : Classifier) : PassList :=
  match s.augmentationClass? p with
  | some c => augmentationFor c
  | none => .empty

/-- The passes after the slicing of a phase. -/
def postSlicing (s : Selector) (phase : Phase) (p : Classifier) : PassList :=
  s.phaseSpecific phase ++ s.augmentation p

/-! ## All that is chosen -/

theorem isSelected_of_mem_preSlicing {s : Selector} {p : Classifier} {pass : Pass}
    (h : pass ∈ (s.preSlicing p).passes) : pass.IsSelected := by
  unfold preSlicing at h
  split at h
  · obtain rfl := List.mem_singleton.1 h
    exact .findExits
  · cases h

theorem isSelected_of_mem_phaseSpecific {s : Selector} {phase : Phase} {pass : Pass}
    (h : pass ∈ (s.phaseSpecific phase).passes) : pass.IsSelected := by
  unfold phaseSpecific at h
  split at h
  · obtain rfl := List.mem_singleton.1 h
    exact .baseCase _
  · split at h
    · obtain rfl := List.mem_singleton.1 h
      exact .stepCase _
    · cases h

theorem isSelected_of_mem_augmentationFor {c : PropertyClass} {pass : Pass}
    (h : pass ∈ (augmentationFor c).passes) : pass.IsSelected := by
  cases c with
  | reachability => cases h
  | memorySafety =>
    obtain rfl := List.mem_singleton.1 h
    exact .removeReadonlyAttr
  | termination =>
    rcases List.mem_cons.1 h with rfl | h
    · exact .instrumentNontermination
    · obtain rfl := List.mem_singleton.1 h
      exact .markNonterminationHeader

/-- Every pass after the slicing of a phase is one that a selection can choose. -/
theorem isSelected_of_mem_postSlicing {s : Selector} {phase : Phase} {p : Classifier}
    {pass : Pass} (h : pass ∈ (s.postSlicing phase p).passes) : pass.IsSelected := by
  rcases List.mem_append.1 h with hspecific | hadded
  · exact isSelected_of_mem_phaseSpecific hspecific
  · unfold augmentation at hadded
    split at hadded
    · exact isSelected_of_mem_augmentationFor hadded
    · cases hadded

/-! ## Schedules -/

/-- The passes after slicing for a number of phases from one on. -/
def scheduleFrom (s : Selector) (p : Classifier) (phase : Phase) :
    (phases : Nat) → List (Phase × PassList)
  | 0 => []
  | phases + 1 => (phase, s.postSlicing phase p) :: s.scheduleFrom p phase.next phases

/-- The passes after slicing for the first phases. -/
def schedule (s : Selector) (p : Classifier) (phases : UInt32) : List (Phase × PassList) :=
  s.scheduleFrom p .initial phases.toNat

/-- A schedule has an entry for each phase. -/
@[simp]
theorem length_scheduleFrom (s : Selector) (p : Classifier) (phase : Phase) (phases : Nat) :
    (s.scheduleFrom p phase phases).length = phases := by
  induction phases generalizing phase with
  | zero => rfl
  | succ phases ih => simp [scheduleFrom, ih]

end Selector

end PhasedInduction
