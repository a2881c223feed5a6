import PhasedInduction.Proofs.Course

/-!
# First faults of configurations

A configuration is accepted exactly when nothing is wrong with it, and otherwise the error tells
what is wrong: the first fault in the order of phase, program, suffix and priority.  In the priority
that is the class at the smallest index where a class occurred before.  A controller is made exactly
of an accepted configuration, and refused with the error of the configuration itself.

Main results:

- Theorem {lit}`firstRepeated?_eq_some_iff` and {lit}`isFirstRepetition_iff`: the first class that
  occurred before.
- Theorem {lit}`ConfigFault.message_injective`: the text of a fault tells the fault.
- Theorem {lit}`Config.fault?_eq_none_iff` and {lit}`Config.fault?_eq_some_iff`: when there is no
  fault, and which one is the first.
- Theorem {lit}`Config.accepted_or_first_fault`: the law of checking a configuration.
-/

namespace PhasedInduction

/-! ## Repeated classes -/

/-- No class is found if no class occurs twice and none occurred before. -/
theorem firstRepeated?_eq_none_iff (seen priority : List PropertyClass) :
    firstRepeated? seen priority = none ↔ priority.Nodup ∧ ∀ c ∈ priority, c ∉ seen := by
  induction priority generalizing seen with
  | nil => simp [firstRepeated?]
  | cons c rest ih =>
    by_cases hseen : c ∈ seen
    · simp [firstRepeated?, hseen]
    · rw [firstRepeated?, if_neg hseen, ih, List.nodup_cons]
      constructor
      · rintro ⟨hdistinct, hnew⟩
        refine ⟨⟨fun hmem => hnew c hmem List.mem_cons_self, hdistinct⟩, ?_⟩
        intro d hd
        rcases List.mem_cons.mp hd with rfl | hd
        · exact hseen
        · exact fun hmem => hnew d hd (List.mem_cons_of_mem _ hmem)
      · rintro ⟨⟨hmem, hdistinct⟩, hnew⟩
        refine ⟨hdistinct, fun d hd hmem' => ?_⟩
        rcases List.mem_cons.mp hmem' with rfl | hmem'
        · exact hmem hd
        · exact hnew d (List.mem_cons_of_mem _ hd) hmem'

/-- The class that is found occurred before, and up to it nothing would have been found. -/
theorem firstRepeated?_eq_some_iff (seen priority : List PropertyClass) (c : PropertyClass) :
    firstRepeated? seen priority = some c ↔ ∃ before after, priority = before ++ c :: after ∧
      (c ∈ seen ∨ c ∈ before) ∧ firstRepeated? seen before = none := by
  induction priority generalizing seen with
  | nil => simp [firstRepeated?]
  | cons d rest ih =>
    by_cases hseen : d ∈ seen
    · rw [firstRepeated?, if_pos hseen]
      constructor
      · rintro h
        obtain rfl := Option.some.inj h
        exact ⟨[], rest, rfl, .inl hseen, rfl⟩
      · rintro ⟨before, after, heq, -, hnone⟩
        cases before with
        | nil => rw [(List.cons.inj heq).1]
        | cons e before =>
          obtain ⟨rfl, -⟩ := List.cons.inj heq
          simp [firstRepeated?, hseen] at hnone
    · rw [firstRepeated?, if_neg hseen, ih]
      constructor
      · rintro ⟨before, after, rfl, hbefore, hnone⟩
        refine ⟨d :: before, after, rfl, ?_, by rwa [firstRepeated?, if_neg hseen]⟩
        simpa [or_assoc, or_left_comm] using hbefore
      · rintro ⟨before, after, heq, hbefore, hnone⟩
        cases before with
        | nil =>
          obtain ⟨rfl, -⟩ := List.cons.inj heq
          simp [hseen] at hbefore
        | cons e before =>
          obtain ⟨rfl, hrest⟩ := List.cons.inj heq
          rw [firstRepeated?, if_neg hseen] at hnone
          refine ⟨before, after, hrest, ?_, hnone⟩
          simpa [or_assoc, or_left_comm] using hbefore

/-- A class stands at the smallest index of a list where a class occurred before. -/
structure IsFirstRepetition (priority : List PropertyClass) (i : Nat) (c : PropertyClass) :
    Prop where
  stands : priority[i]? = some c
  occurred : c ∈ priority.take i
  smallest : ∀ j d, priority[j]? = some d → d ∈ priority.take j → i ≤ j

/-- No class of a list that does not repeat any occurs before its index. -/
theorem not_mem_take_of_nodup {priority : List PropertyClass} (h : priority.Nodup) {j : Nat}
    {d : PropertyClass} (hj : priority[j]? = some d) : d ∉ priority.take j := by
  intro hmem
  obtain ⟨i, hi, hd⟩ := List.mem_take_iff_getElem.mp hmem
  obtain ⟨hlt, rfl⟩ := List.getElem?_eq_some_iff.mp hj
  have hsame : i = j := (List.getElem_inj h).mp hd
  omega

/-- A class that is found stands at the smallest index where a class occurred before. -/
theorem exists_isFirstRepetition {priority : List PropertyClass} {c : PropertyClass}
    (h : firstRepeated? [] priority = some c) : ∃ i, IsFirstRepetition priority i c := by
  obtain ⟨before, after, rfl, hbefore, hnone⟩ := (firstRepeated?_eq_some_iff _ _ _).mp h
  have hdistinct : before.Nodup := ((firstRepeated?_eq_none_iff [] before).mp hnone).1
  refine ⟨before.length, by simp, by simpa using hbefore, ?_⟩
  intro j d hj hmem
  by_contra hnot
  have hlt : j < before.length := Nat.lt_of_not_le hnot
  rw [List.getElem?_append_left hlt] at hj
  rw [List.take_append_of_le_length (Nat.le_of_lt hlt)] at hmem
  exact not_mem_take_of_nodup hdistinct hj hmem

/-- The class that is found is the one at the smallest index where a class occurred before. -/
theorem isFirstRepetition_iff (priority : List PropertyClass) (c : PropertyClass) :
    firstRepeated? [] priority = some c ↔ ∃ i, IsFirstRepetition priority i c := by
  constructor
  · exact exists_isFirstRepetition
  · rintro ⟨i, hfirst⟩
    cases hfound : firstRepeated? [] priority with
    | none =>
      have hdistinct : priority.Nodup := ((firstRepeated?_eq_none_iff [] priority).mp hfound).1
      exact absurd hfirst.occurred (not_mem_take_of_nodup hdistinct hfirst.stands)
    | some d =>
      -- two smallest indices are the same, and one class stands there
      obtain ⟨j, hother⟩ := exists_isFirstRepetition hfound
      have hij : i ≤ j := hfirst.smallest j d hother.stands hother.occurred
      have hji : j ≤ i := hother.smallest i c hfirst.stands hfirst.occurred
      obtain rfl : i = j := Nat.le_antisymm hij hji
      exact hother.stands.symm.trans hfirst.stands

/-! ## The first fault -/

namespace ConfigFault

/-- All faults. -/
def all : List ConfigFault :=
  [.phaseZero, .blankProgram, .emptySuffix] ++ PropertyClass.all.map .repeatedClass

theorem mem_all (fault : ConfigFault) : fault ∈ all := by
  cases fault with
  | repeatedClass c => cases c <;> decide
  | _ => decide

/-- The text of a fault tells the fault, and so the class that is repeated. -/
theorem message_injective {a b : ConfigFault} (h : a.message = b.message) : a = b := by
  have hall : ∀ a ∈ all, ∀ b ∈ all, a.message = b.message → a = b := by decide +kernel
  exact hall a (mem_all a) b (mem_all b) h

end ConfigFault

namespace Config

variable {c : Config}

/-- What a configuration has to meet. -/
structure IsUsable (c : Config) : Prop where
  phase : c.invariants.phase ≠ 0
  program : ∃ ch ∈ c.invariants.program.toList, Text.isBlank ch = false
  suffix : c.invariants.outputSuffix ≠ ""
  priority : c.augmentation.priority.Nodup

/-- What is wrong with a configuration first: the conditions before it are met. -/
inductive IsFirstFault (c : Config) : ConfigFault → Prop
  | phaseZero (h : c.invariants.phase = 0) : IsFirstFault c .phaseZero
  | blankProgram (hphase : c.invariants.phase ≠ 0)
      (h : ∀ ch ∈ c.invariants.program.toList, Text.isBlank ch = true) :
      IsFirstFault c .blankProgram
  | emptySuffix (hphase : c.invariants.phase ≠ 0)
      (hprogram : ∃ ch ∈ c.invariants.program.toList, Text.isBlank ch = false)
      (h : c.invariants.outputSuffix = "") : IsFirstFault c .emptySuffix
  | repeatedClass (hphase : c.invariants.phase ≠ 0)
      (hprogram : ∃ ch ∈ c.invariants.program.toList, Text.isBlank ch = false)
      (hsuffix : c.invariants.outputSuffix ≠ "") (i : Nat) (d : PropertyClass)
      (h : IsFirstRepetition c.augmentation.priority i d) : IsFirstFault c (.repeatedClass d)

/-- A text is not empty after trimming if it has a character that is not blank. -/
theorem isEmpty_trim_eq_false_iff (s : List Char) :
    (Text.trim s).isEmpty = false ↔ ∃ ch ∈ s, Text.isBlank ch = false := by
  simp [List.isEmpty_eq_false_iff, Text.trim_eq_nil_iff]

/-- Where the other conditions are met, the priority decides. -/
theorem fault?_of_suffix (hphase : c.invariants.phase ≠ 0)
    (hprogram : ∃ ch ∈ c.invariants.program.toList, Text.isBlank ch = false)
    (hsuffix : c.invariants.outputSuffix ≠ "") :
    c.fault? = (firstRepeated? [] c.augmentation.priority).map .repeatedClass := by
  rw [fault?, if_neg hphase, (isEmpty_trim_eq_false_iff _).mpr hprogram, if_neg hsuffix]
  rfl

/-- What is wrong first is found. -/
theorem IsFirstFault.fault?_eq {fault : ConfigFault} (h : c.IsFirstFault fault) :
    c.fault? = some fault := by
  cases h with
  | phaseZero h => rw [fault?, if_pos h]
  | blankProgram hphase h =>
    rw [fault?, if_neg hphase, (Text.trim_eq_nil_iff _).mpr h]
    rfl
  | emptySuffix hphase hprogram h =>
    rw [fault?, if_neg hphase, (isEmpty_trim_eq_false_iff _).mpr hprogram, if_pos h]
    rfl
  | repeatedClass hphase hprogram hsuffix i d h =>
    rw [fault?_of_suffix hphase hprogram hsuffix, (isFirstRepetition_iff _ _).mpr ⟨i, h⟩]
    rfl

/-- Nothing is found in a configuration that meets all conditions. -/
theorem IsUsable.fault?_eq (h : c.IsUsable) : c.fault? = none := by
  have hnone : firstRepeated? [] c.augmentation.priority = none :=
    (firstRepeated?_eq_none_iff _ _).mpr ⟨h.priority, fun _ _ => List.not_mem_nil⟩
  rw [fault?_of_suffix h.phase h.program h.suffix, hnone]
  rfl

/-- A configuration meets all conditions, or something is wrong with it first. -/
theorem isUsable_or_isFirstFault (c : Config) : c.IsUsable ∨ ∃ fault, c.IsFirstFault fault := by
  by_cases hphase : c.invariants.phase = 0
  · exact .inr ⟨_, .phaseZero hphase⟩
  by_cases hblank : ∀ ch ∈ c.invariants.program.toList, Text.isBlank ch = true
  · exact .inr ⟨_, .blankProgram hphase hblank⟩
  have hprogram : ∃ ch ∈ c.invariants.program.toList, Text.isBlank ch = false := by
    simpa using hblank
  by_cases hsuffix : c.invariants.outputSuffix = ""
  · exact .inr ⟨_, .emptySuffix hphase hprogram hsuffix⟩
  cases hrepeated : firstRepeated? [] c.augmentation.priority with
  | none =>
    have hdistinct := ((firstRepeated?_eq_none_iff _ _).mp hrepeated).1
    exact .inl ⟨hphase, hprogram, hsuffix, hdistinct⟩
  | some d =>
    obtain ⟨i, hfirst⟩ := exists_isFirstRepetition hrepeated
    exact .inr ⟨_, .repeatedClass hphase hprogram hsuffix i d hfirst⟩

/-- A configuration has no fault exactly if it meets all conditions. -/
theorem fault?_eq_none_iff (c : Config) : c.fault? = none ↔ c.IsUsable := by
  constructor
  · intro hnone
    rcases c.isUsable_or_isFirstFault with husable | ⟨fault, hfirst⟩
    · exact husable
    · exact absurd (hnone.symm.trans hfirst.fault?_eq) (Option.some_ne_none fault).symm
  · exact IsUsable.fault?_eq

/-- The fault of a configuration is what is wrong with it first. -/
theorem fault?_eq_some_iff (c : Config) (fault : ConfigFault) :
    c.fault? = some fault ↔ c.IsFirstFault fault := by
  constructor
  · intro hsome
    rcases c.isUsable_or_isFirstFault with husable | ⟨other, hfirst⟩
    · exact absurd (husable.fault?_eq.symm.trans hsome) (Option.some_ne_none fault).symm
    · obtain rfl : fault = other := Option.some.inj (hsome.symm.trans hfirst.fault?_eq)
      exact hfirst
  · exact IsFirstFault.fault?_eq

/-- An error of a check is the text of a fault. -/
theorem validate_eq_error_iff (c : Config) (e : CampaignError) :
    c.validate = .error e ↔ ∃ fault, c.fault? = some fault ∧ e = .config fault.message := by
  unfold validate
  cases c.fault? with
  | none => simp
  | some fault => simp [eq_comm]

end Config

/-! ## Controllers -/

/-- A configuration is refused a controller for the error of its check. -/
theorem Controller.ofConfig_eq_error_iff (c : Config) (e : CampaignError) :
    ofConfig c = .error e ↔ c.validate = .error e := by
  cases hvalidate : c.validate with
  | error other => simp [ofConfig, hvalidate]
  | ok accepted =>
    obtain ⟨controller, hcontroller⟩ := exists_ofConfig hvalidate
    simp [hcontroller]

/-! ## The law of checking -/

namespace Config

/-- A configuration is accepted exactly if its phase is not zero, its program has a character that
is not blank, its suffix is not empty, and no class stands twice in its priority.  Otherwise the
error is the text of the first fault in this order, from which the fault can be told; a class is
named that stands at the smallest index where a class occurred before.  A controller is made exactly
of an accepted configuration, for the phase that it asks for, and is otherwise refused with the same
error, which is never one of the domain. -/
theorem accepted_or_first_fault (c : Config) :
    (c.validate = .ok () ↔
      c.invariants.phase ≠ 0 ∧
        (∃ ch ∈ c.invariants.program.toList, Text.isBlank ch = false) ∧
        c.invariants.outputSuffix ≠ "" ∧ c.augmentation.priority.Nodup) ∧
      (∀ e, c.validate = .error e → ∃ fault, e = .config (ConfigFault.message fault)) ∧
      (∀ fault, c.validate = .error (.config (ConfigFault.message fault)) ↔
        c.IsFirstFault fault) ∧
      ((∃ controller, Controller.ofConfig c = .ok controller) ↔ c.validate = .ok ()) ∧
      (∀ controller, Controller.ofConfig c = .ok controller →
        controller.invariantPhase.number = c.invariants.phase) ∧
      (∀ e, Controller.ofConfig c = .error e ↔ c.validate = .error e) ∧
      ∀ e, Controller.ofConfig c ≠ .error (.core e) := by
  refine ⟨?_, ?_, ?_, ?_, ?_, Controller.ofConfig_eq_error_iff c, ?_⟩
  · rw [validate_eq_ok_iff, fault?_eq_none_iff]
    exact ⟨fun h => ⟨h.phase, h.program, h.suffix, h.priority⟩,
      fun ⟨hphase, hprogram, hsuffix, hpriority⟩ => ⟨hphase, hprogram, hsuffix, hpriority⟩⟩
  · intro e herror
    obtain ⟨fault, -, rfl⟩ := (c.validate_eq_error_iff e).mp herror
    exact ⟨fault, rfl⟩
  · intro fault
    rw [validate_eq_error_iff, ← fault?_eq_some_iff]
    constructor
    · rintro ⟨other, hother, hmessage⟩
      rw [hother, ConfigFault.message_injective (CampaignError.config.inj hmessage)]
    · exact fun hfault => ⟨fault, hfault, rfl⟩
  · constructor
    · rintro ⟨controller, hcontroller⟩
      exact c.validate_eq_ok_iff.mpr (Controller.ofConfig_eq_ok_iff.mp hcontroller).1
    · exact Controller.exists_ofConfig
  · intro controller hcontroller
    exact (Controller.ofConfig_eq_ok_iff.mp hcontroller).2.1
  · intro e hcore
    rw [Controller.ofConfig_eq_error_iff, validate_eq_error_iff] at hcore
    obtain ⟨fault, -, heq⟩ := hcore
    cases heq

/-- With several faults at once the first one counts, here a program of blank characters. -/
example :
    ({ invariants := { program := "\u2003\t", outputSuffix := "" }
       augmentation := ⟨[.termination, .termination]⟩ } : Config).fault? =
      some .blankProgram := by decide +kernel

end Config

end PhasedInduction
