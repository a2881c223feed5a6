import PhasedInduction.Proofs.OptimiserArguments
import PhasedInduction.Proofs.UnnoticedCalls

/-!
# Passes of a tool as optimiser arguments

The passes that a selection chooses are legible in every phase, whatever the bounds and the
priority are.  So of all that a tool answers, only the base passes of its verifier can keep the
optimiser arguments from being read back, and they do not disturb the passes behind them.

Main results:

- Theorem {lit}`Selector.isLegible_postSlicing`: the passes of a phase are legible.
- Theorem {lit}`Tool.answer_at_passesBeforeSlicing`: which passes a call before slicing gives.
- Theorem {lit}`Tool.passes_read_back_iff_base_passes`: the law for every run of a tool.
-/

namespace PhasedInduction

/-! ## Selected passes -/

/-- Every pass that a selection can choose is legible, whatever the bounds are. -/
theorem Pass.IsSelected.isLegible {pass : Pass} (h : pass.IsSelected) : pass.IsLegible := by
  cases h with
  | findExits => decide
  | baseCase maxBackedgeCount =>
    exact IsLegible.withParam (show IsLegible ⟨"kind-base-case", []⟩ by decide) _ _
  | stepCase k => exact IsLegible.withParam (show IsLegible ⟨"kind-step-case", []⟩ by decide) _ _
  | removeReadonlyAttr => decide
  | instrumentNontermination => decide
  | markNonterminationHeader => decide

namespace Selector

/-- The passes before slicing are legible. -/
theorem isLegible_preSlicing (s : Selector) (p : Classifier) : (s.preSlicing p).IsLegible :=
  fun _ h => (isSelected_of_mem_preSlicing h).isLegible

/-- The passes of a phase are legible. -/
theorem isLegible_postSlicing (s : Selector) (phase : Phase) (p : Classifier) :
    (s.postSlicing phase p).IsLegible :=
  fun _ h => (isSelected_of_mem_postSlicing h).isLegible

end Selector

namespace Tool

/-! ## Answers of a tool -/

/-- A call for the passes before slicing gives those of the property. -/
theorem answer_at_passesBeforeSlicing (around : Surroundings) (t : Tool)
    (before rest : List Call) :
    ((steps around t (before ++ .passesBeforeSlicing :: rest))[before.length]?).map
        Step.answer =
      some (.passes (t.controller.selector.preSlicing t.session.property.classifier)) := by
  obtain ⟨hcontroller, -, hproperty, -⟩ := after_keeps around t before
  rw [getElem?_steps, Option.map_some, ← hcontroller, ← hproperty]
  rfl

/-- In a usable configuration, let a tool be at any session with any verifier, and let its host
call it in any order.  The passes of every call after slicing are read back from their optimiser
arguments exactly if the base passes of the verifier alone are, whichever phase the session is
in.  The passes of every call before slicing are read back. -/
theorem passes_read_back_iff_base_passes {config : Config} (hvalid : config.validate = .ok ()) :
    ∃ controller, Controller.ofConfig config = .ok controller ∧
      (∀ id property verifier, (start config id property verifier).map Step.state =
        .ok ⟨controller, .opened id property, verifier⟩) ∧
      ∀ (session : Session) (verifier : VerifierConfig) (around : Surroundings)
        (before rest : List Call),
        let answers (call : Call) : Option Answer :=
          ((steps around ⟨controller, session, verifier⟩
            (before ++ call :: rest))[before.length]?).map Step.answer
        (∃ passes, answers .passesAfterSlicing = some (.passes passes) ∧
          (PassList.ofOptArgs passes.toOptArgs = .ok passes ↔
            PassList.ofOptArgs verifier.basePasses.toOptArgs = .ok verifier.basePasses)) ∧
        ∃ passes, answers .passesBeforeSlicing = some (.passes passes) ∧
          PassList.ofOptArgs passes.toOptArgs = .ok passes := by
  obtain ⟨controller, hcontroller⟩ := Controller.exists_ofConfig hvalid
  refine ⟨controller, hcontroller, ?_, ?_⟩
  · intro id property verifier
    rw [start, hcontroller]
    rfl
  · intro session verifier around before rest answers
    constructor
    · refine ⟨_, answer_at_passesAfterSlicing around _ before rest, ?_⟩
      rw [PassList.ofOptArgs_toOptArgs_iff, PassList.ofOptArgs_toOptArgs_iff,
        PassList.isLegible_append]
      exact and_iff_left (controller.selector.isLegible_postSlicing _ _)
    · refine ⟨_, answer_at_passesBeforeSlicing around _ before rest, ?_⟩
      rw [PassList.ofOptArgs_toOptArgs_iff]
      exact controller.selector.isLegible_preSlicing _

/-- In phase two of a termination campaign, a base pass with a parameter is read back together
with the passes of the phase, and a base pass whose name has an equals sign spoils them. -/
theorem passes_read_back_in_two :
    let around : Surroundings := { runner := .steady fun _ => .error "not found" }
    let clean : VerifierConfig := ⟨"klee", "14", .single ⟨"inline", ["limit=9"]⟩, .empty⟩
    let spoilt : VerifierConfig := ⟨"klee", "14", .single ⟨"limit=9", []⟩, .empty⟩
    let session : Session := .opened ⟨7⟩ ⟨[.termination]⟩
    ({} : Config).validate = .ok () ∧
      ∃ controller, Controller.ofConfig {} = .ok controller ∧
        let second (verifier : VerifierConfig) : Option Answer :=
          ((steps around ⟨controller, session, verifier⟩
            [.passesAfterSlicing, .passesAfterSlicing])[1]?).map Step.answer
        (∃ passes, second clean = some (.passes passes) ∧
          PassList.ofOptArgs passes.toOptArgs = .ok passes) ∧
        ∃ passes, second spoilt = some (.passes passes) ∧
          PassList.ofOptArgs passes.toOptArgs ≠ .ok passes := by
  intro around clean spoilt session
  obtain ⟨controller, hcontroller, -, hruns⟩ :=
    passes_read_back_iff_base_passes Config.validate_default
  refine ⟨Config.validate_default, controller, hcontroller, ?_, ?_⟩
  · obtain ⟨⟨passes, hanswer, hiff⟩, -⟩ := hruns session clean around [.passesAfterSlicing] []
    refine ⟨passes, hanswer, hiff.mpr ?_⟩
    rw [PassList.ofOptArgs_toOptArgs_iff]
    decide
  · obtain ⟨⟨passes, hanswer, hiff⟩, -⟩ := hruns session spoilt around [.passesAfterSlicing] []
    refine ⟨passes, hanswer, fun hread => ?_⟩
    have hbase := hiff.mp hread
    rw [PassList.ofOptArgs_toOptArgs_iff] at hbase
    revert hbase
    decide

end Tool

end PhasedInduction
