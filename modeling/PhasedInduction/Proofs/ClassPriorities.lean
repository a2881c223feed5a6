import Mathlib.Logic.Relation
import PhasedInduction.Selection

/-!
# Priorities of classes

What runs after the slicing of a phase has two parts.  The first one belongs to the phase and
carries the bound of the configuration.  The second one is the same in every phase, and of the
priority it depends only on the first class that the property satisfies.  So a priority may get
more classes without any effect: everywhere those that the property does not satisfy, and behind a
class that it satisfies any others.

Main results:

- Theorem {lit}`Selector.isAddedFor_augmentation`: what the second part is, by the first class of
  the priority that the property satisfies.
- Theorem {lit}`Classifier.find?_of_insertions`: classes that are inserted so do not change the
  first one that is satisfied.
- Theorem {lit}`Selector.not_both_mem_names`: the passes of two classes never stand together.
- Theorem {lit}`Selector.passes_by_priority`: the law of the passes after slicing.
-/

namespace PhasedInduction

/-! ## Parameters of the passes of a phase -/

namespace Pass

/-- A pass with a single parameter carries it. -/
theorem param?_withParam_single (name : String) {key : String} (h : '=' ∉ key.toList)
    (value : String) : (withParam ⟨name, []⟩ key value).param? key = some value := by
  rw [param?_withParam, valueOf?_append h, if_pos rfl]
  rfl

/-- The base case carries the bound on the backedges. -/
theorem param?_baseCase (maxBackedgeCount : UInt32) :
    (baseCase maxBackedgeCount).param? "kind-max-backedge-count" =
      some (toString maxBackedgeCount.toNat) :=
  param?_withParam_single _ (by decide) _

/-- The step case carries the width. -/
theorem param?_stepCase (k : UInt32) :
    (stepCase k).param? "kind-k" = some (toString k.toNat) :=
  param?_withParam_single _ (by decide) _

end Pass

/-! ## The first class that is satisfied -/

namespace Classifier

/-- A class is the first one of a priority that the property satisfies. -/
def IsFirstIn (p : Classifier) (c : PropertyClass) (priority : List PropertyClass) : Prop :=
  p.satisfies c = true ∧ ∃ before after, priority = before ++ c :: after ∧
    ∀ d ∈ before, p.satisfies d = false

/-- A priority with one class more: one that the property does not satisfy, at any place, or any
class behind one that it satisfies. -/
inductive InsertsClass (p : Classifier) : List PropertyClass → List PropertyClass → Prop
  | unsatisfied (before after : List PropertyClass) (d : PropertyClass)
      (h : p.satisfies d = false) : InsertsClass p (before ++ after) (before ++ d :: after)
  | behind (before after : List PropertyClass) (c d : PropertyClass) (hmem : c ∈ before)
      (h : p.satisfies c = true) : InsertsClass p (before ++ after) (before ++ d :: after)

/-- One class more leaves the first one that is satisfied. -/
theorem find?_of_insertsClass {p : Classifier} {priority longer : List PropertyClass}
    (h : p.InsertsClass priority longer) :
    longer.find? p.satisfies = priority.find? p.satisfies := by
  cases h with
  | unsatisfied before after d hd =>
    rw [List.find?_append, List.find?_append, List.find?_cons, hd]
  | behind before after c d hmem hc =>
    have hfound : (before.find? p.satisfies).isSome = true :=
      List.find?_isSome.mpr ⟨c, hmem, hc⟩
    rw [List.find?_append, List.find?_append, Option.or_of_isSome hfound,
      Option.or_of_isSome hfound]

/-- Any number of classes inserted one after another leave the first one that is satisfied. -/
theorem find?_of_insertions {p : Classifier} {priority longer : List PropertyClass}
    (h : Relation.ReflTransGen p.InsertsClass priority longer) :
    longer.find? p.satisfies = priority.find? p.satisfies := by
  induction h with
  | refl => rfl
  | tail _ hlast ih => rw [find?_of_insertsClass hlast, ih]

/-- The passes that a property adds in every phase, by the first class of a priority that it
satisfies. -/
inductive IsAddedFor (p : Classifier) (priority : List PropertyClass) : PassList → Prop
  | memorySafety (h : p.IsFirstIn .memorySafety priority) :
      IsAddedFor p priority ⟨[⟨"remove-readonly-attr", []⟩]⟩
  | termination (h : p.IsFirstIn .termination priority) :
      IsAddedFor p priority
        ⟨[⟨"instrument-nontermination", []⟩, ⟨"instrument-nontermination-mark-header", []⟩]⟩
  | reachability (h : p.IsFirstIn .reachability priority) : IsAddedFor p priority ⟨[]⟩
  | unsatisfied (h : ∀ c ∈ priority, p.satisfies c = false) : IsAddedFor p priority ⟨[]⟩

/-- The added passes do not have the passes of two classes. -/
theorem IsAddedFor.not_both {p : Classifier} {priority : List PropertyClass} {added : PassList}
    (h : p.IsAddedFor priority added) :
    ¬("remove-readonly-attr" ∈ added.names ∧ "instrument-nontermination" ∈ added.names) := by
  cases h <;> decide

end Classifier

/-! ## The passes after slicing -/

namespace Selector

/-- The second part of the passes after slicing is what the first satisfied class of the priority
says. -/
theorem isAddedFor_augmentation (s : Selector) (p : Classifier) :
    p.IsAddedFor s.policy.priority (s.augmentation p) := by
  unfold augmentation
  cases hclass : s.augmentationClass? p with
  | none => exact .unsatisfied (by simpa [augmentationClass?] using hclass)
  | some c =>
    have hfirst : p.IsFirstIn c s.policy.priority :=
      (s.augmentationClass?_eq_some_iff p c).mp hclass
    cases c with
    | reachability => exact .reachability hfirst
    | memorySafety => exact .memorySafety hfirst
    | termination => exact .termination hfirst

/-- In the first phase the base case with the bound on the backedges comes first. -/
theorem postSlicing_of_first (s : Selector) {phase : Phase} (h : phase.toNat = 1)
    (p : Classifier) :
    s.postSlicing phase p =
      ⟨.baseCase s.bounds.maxBackedgeCount :: (s.augmentation p).passes⟩ := by
  have hnumber : phase.number = 1 := UInt32.toNat_inj.mp h
  simp only [postSlicing, phaseSpecific, hnumber, if_true]
  rfl

/-- In the second phase the step case with the width comes first. -/
theorem postSlicing_of_second (s : Selector) {phase : Phase} (h : phase.toNat = 2)
    (p : Classifier) :
    s.postSlicing phase p = ⟨.stepCase s.bounds.k :: (s.augmentation p).passes⟩ := by
  have hnumber : phase.number = 2 := UInt32.toNat_inj.mp h
  simp only [postSlicing, phaseSpecific, hnumber, if_true, show ¬(2 : UInt32) = 1 by decide,
    if_false]
  rfl

/-- In later phases only the second part is there. -/
theorem postSlicing_of_later (s : Selector) {phase : Phase} (h : 2 < phase.toNat)
    (p : Classifier) : s.postSlicing phase p = s.augmentation p := by
  have hother (n : UInt32) (hn : n.toNat ≤ 2) : ¬phase.number = n := by
    rintro rfl
    exact absurd h (Nat.not_lt.mpr hn)
  simp only [postSlicing, phaseSpecific, hother 1 (by decide), hother 2 (by decide), if_false]
  rfl

/-- What belongs to a phase is none of the passes of a class. -/
theorem not_mem_names_phaseSpecific (s : Selector) (phase : Phase) :
    "remove-readonly-attr" ∉ (s.phaseSpecific phase).names ∧
      "instrument-nontermination" ∉ (s.phaseSpecific phase).names := by
  unfold phaseSpecific
  split
  · simp [PassList.names, Pass.baseCase, Pass.withParam]
  · split
    · simp [PassList.names, Pass.stepCase, Pass.withParam]
    · simp [PassList.names]

/-- The passes of memory safety and of termination never stand together. -/
theorem not_both_mem_names (s : Selector) (phase : Phase) (p : Classifier) :
    ¬("remove-readonly-attr" ∈ (s.postSlicing phase p).names ∧
      "instrument-nontermination" ∈ (s.postSlicing phase p).names) := by
  obtain ⟨hreadonly, hnontermination⟩ := s.not_mem_names_phaseSpecific phase
  have hnames : (s.postSlicing phase p).names =
      (s.phaseSpecific phase).names ++ (s.augmentation p).names := by
    simp only [postSlicing, PassList.names, PassList.passes_append, List.map_append]
  rw [hnames, List.mem_append, List.mem_append, or_iff_right hreadonly,
    or_iff_right hnontermination]
  exact (s.isAddedFor_augmentation p).not_both

/-- A priority with more classes that do not count gives the same passes. -/
theorem postSlicing_of_insertions {c : Config} {p : Classifier} {priority : List PropertyClass}
    (h : Relation.ReflTransGen p.InsertsClass c.augmentation.priority priority) (phase : Phase) :
    (ofConfig { c with augmentation := ⟨priority⟩ }).postSlicing phase p =
      (ofConfig c).postSlicing phase p := by
  have hclass : (ofConfig { c with augmentation := ⟨priority⟩ }).augmentationClass? p =
      (ofConfig c).augmentationClass? p :=
    Classifier.find?_of_insertions h
  have hadded : (ofConfig { c with augmentation := ⟨priority⟩ }).augmentation p =
      (ofConfig c).augmentation p := by
    rw [augmentation, augmentation, hclass]
  rw [postSlicing, postSlicing, hadded]
  rfl

/-- For every configuration, usable or not, and every property, the same passes are added in every
phase: those of the first class of the priority that the property satisfies.  Before them stands the
base case with the bound on the backedges in the first phase, the step case with the width in the
second one, and nothing later.  The passes of a phase stay as they are if the priority gets more
classes, anywhere those that the property does not satisfy and behind a satisfied one any others,
and they never have the passes of memory safety and of termination together. -/
theorem passes_by_priority (c : Config) (p : Classifier) :
    let s := ofConfig c
    ∃ added : PassList, p.IsAddedFor c.augmentation.priority added ∧
      (∀ phase : Phase, phase.toNat = 1 →
        ∃ base : Pass, s.postSlicing phase p = ⟨base :: added.passes⟩ ∧
          base.name = "kind-base-case" ∧
          base.params =
            ["kind-max-backedge-count=" ++ toString c.induction.maxBackedgeCount.toNat] ∧
          base.param? "kind-max-backedge-count" =
            some (toString c.induction.maxBackedgeCount.toNat)) ∧
      (∀ phase : Phase, phase.toNat = 2 →
        ∃ step : Pass, s.postSlicing phase p = ⟨step :: added.passes⟩ ∧
          step.name = "kind-step-case" ∧
          step.params = ["kind-k=" ++ toString c.induction.k.toNat] ∧
          step.param? "kind-k" = some (toString c.induction.k.toNat)) ∧
      (∀ phase : Phase, 2 < phase.toNat → s.postSlicing phase p = added) ∧
      (∀ priority, Relation.ReflTransGen p.InsertsClass c.augmentation.priority priority →
        ∀ phase, (ofConfig { c with augmentation := ⟨priority⟩ }).postSlicing phase p =
          s.postSlicing phase p) ∧
      ∀ phase, ¬("remove-readonly-attr" ∈ (s.postSlicing phase p).names ∧
        "instrument-nontermination" ∈ (s.postSlicing phase p).names) := by
  intro s
  refine ⟨s.augmentation p, s.isAddedFor_augmentation p, ?_, ?_, ?_, ?_, ?_⟩
  · intro phase hphase
    exact ⟨_, s.postSlicing_of_first hphase p, rfl, rfl, Pass.param?_baseCase _⟩
  · intro phase hphase
    exact ⟨_, s.postSlicing_of_second hphase p, rfl, rfl, Pass.param?_stepCase _⟩
  · intro phase hphase
    exact s.postSlicing_of_later hphase p
  · intro priority hpriority phase
    exact postSlicing_of_insertions hpriority phase
  · intro phase
    exact s.not_both_mem_names phase p

/-- Reachability in front keeps a property of all classes from being given any pass. -/
example :
    (ofConfig { augmentation := ⟨[.reachability, .termination, .memorySafety]⟩ }).postSlicing
      ⟨3, by decide⟩ ⟨true, true, true⟩ = .empty := by decide

end Selector

end PhasedInduction
