import PhasedInduction.Proofs.Course
import PhasedInduction.Tool.Basic

/-!
# Rounds of a host

A host goes through rounds: it asks its tool for the passes before slicing, hands over the
artifact for the step between the phases, takes the artifact that it gets back, and asks
for the passes after slicing.  If every command succeeds, the generator runs in the round
of the invariants and in no other one, so at most once, and on the artifact that the host
began with.

Main results:

- Theorem {lit}`Tool.Bench.exists_round`: what one round does if every command succeeds.
- Theorem {lit}`Tool.Bench.exists_rounds`: what many rounds do.
- Theorem {lit}`Tool.Bench.generator_runs_once`: the law of rounds in a usable configuration.
-/

namespace PhasedInduction

/-- A runner under which every command succeeds. -/
def Runner.AlwaysSucceeds (runner : Runner) : Prop :=
  ∀ earlier command, ∃ result, runner earlier command = .ok result ∧ result.success = true

namespace Controller

/-- If every command succeeds, the step between the phases runs the generator in the phase
of the invariants and gives its output; in any other phase it runs nothing and gives the
artifact back. -/
theorem afterTransformation_of_succeeding {c : Controller} {around : Surroundings}
    (hrunner : around.runner.AlwaysSucceeds) (s : Session) (input : Artifact) :
    (c.afterTransformation around.run s input).answer =
        .ok (if s.phase = c.invariantPhase then c.invariants.outputFor input else input) ∧
      (c.afterTransformation around.run s input).commands =
        if s.phase = c.invariantPhase then [c.invariants.commandFor input] else [] := by
  by_cases hphase : s.phase = c.invariantPhase
  · obtain ⟨result, hrun, hsuccess⟩ :=
      hrunner around.commands (c.invariants.commandFor input)
    have hgenerate : c.invariants.generate around.run input =
        .ok (c.invariants.outputFor input) :=
      (InvariantSettings.generate_eq_ok_iff _ _ _ _).2 ⟨⟨result, hrun, hsuccess⟩, rfl⟩
    rw [afterTransformation, if_pos hphase, if_pos hphase, if_pos hphase, hgenerate]
    exact ⟨rfl, rfl⟩
  · rw [afterTransformation_of_ne hphase, if_neg hphase, if_neg hphase]
    exact ⟨rfl, rfl⟩

end Controller

namespace Tool

/-- What a host has before it in its rounds. -/
structure Bench where
  tool : Tool
  around : Surroundings
  artifact : Artifact

/-- What a host learned from its tool in a round, and the commands that ran in it. -/
structure Round where
  phase : Phase
  before : PassList
  commands : List Command
  after : PassList

namespace Bench

/-- One round, which ends early if the step between the phases fails. -/
def round (b : Bench) : Except CampaignError (Round × Bench) :=
  let before := b.tool.passesBeforeSlicing
  let between := b.tool.actionsAfterSlicing b.around.run b.artifact
  match between.answer with
  | .error e => .error e
  | .ok artifact =>
    let slicing := between.state.passesAfterSlicing
    .ok (⟨b.tool.session.phase, before, between.commands, slicing.answer⟩,
      ⟨slicing.state, (b.around.absorb between).absorb slicing, artifact⟩)

/-- A number of rounds, one after the other. -/
def rounds : Nat → Bench → Except CampaignError (List Round × Bench)
  | 0, b => .ok ([], b)
  | n + 1, b =>
    match b.round with
    | .error e => .error e
    | .ok (first, next) =>
      match next.rounds n with
      | .error e => .error e
      | .ok (more, last) => .ok (first :: more, last)

/-! ## One round -/

/-- What one round does if every command succeeds: it moves the tool on by a phase.  In the
phase of the invariants it runs the generator on the artifact and goes on with the output;
in any other phase it runs no command and keeps the artifact. -/
structure Passage (b : Bench) (first : Round) (next : Bench) : Prop where
  phase : first.phase = b.tool.session.phase
  commands : first.commands =
    if b.tool.session.phase = b.tool.controller.invariantPhase then
      [b.tool.controller.invariants.commandFor b.artifact] else []
  artifact : next.artifact =
    if b.tool.session.phase = b.tool.controller.invariantPhase then
      b.tool.controller.invariants.outputFor b.artifact else b.artifact
  tool : next.tool = { b.tool with session := b.tool.session.advance }
  runner : next.around.runner = b.around.runner
  ran : next.around.commands = b.around.commands ++ first.commands

/-- A round goes on to the passes after slicing when the step between the phases succeeds. -/
theorem round_of_ok {b : Bench} {output : Artifact}
    (h : (b.tool.actionsAfterSlicing b.around.run b.artifact).answer = .ok output) :
    let between := b.tool.actionsAfterSlicing b.around.run b.artifact
    let slicing := between.state.passesAfterSlicing
    b.round = .ok (⟨b.tool.session.phase, b.tool.passesBeforeSlicing, between.commands,
      slicing.answer⟩, ⟨slicing.state, (b.around.absorb between).absorb slicing, output⟩) := by
  simp only [round, h]

/-- If every command succeeds, a round succeeds. -/
theorem exists_round {b : Bench} (hrunner : b.around.runner.AlwaysSucceeds) :
    ∃ first next, b.round = .ok (first, next) ∧ b.Passage first next := by
  obtain ⟨hanswer, hcommands⟩ :=
    b.tool.controller.afterTransformation_of_succeeding hrunner b.tool.session b.artifact
  have hstate : (b.tool.actionsAfterSlicing b.around.run b.artifact).state = b.tool :=
    congrArg (fun session => { b.tool with session })
      (b.tool.controller.state_afterTransformation b.around.run b.tool.session b.artifact)
  refine ⟨_, _, round_of_ok hanswer, ⟨rfl, hcommands, rfl, ?_, rfl, ?_⟩⟩
  · rw [hstate]
    rfl
  · exact List.append_nil _

theorem Passage.controller_eq {b next : Bench} {first : Round} (h : b.Passage first next) :
    next.tool.controller = b.tool.controller := by
  rw [h.tool]

theorem Passage.toNat_phase {b next : Bench} {first : Round} (h : b.Passage first next)
    (hbound : b.tool.session.phase.toNat + 1 ≤ UInt32.size - 1) :
    next.tool.session.phase.toNat = b.tool.session.phase.toNat + 1 := by
  rw [h.tool, Session.toNat_phase_advance]
  omega

/-! ## Many rounds -/

/-- Whether the phase of the invariants is among those of the next rounds. -/
def Reaches (b : Bench) (n : Nat) : Prop :=
  b.tool.session.phase.toNat ≤ b.tool.controller.invariantPhase.toNat ∧
    b.tool.controller.invariantPhase.toNat < b.tool.session.phase.toNat + n

instance (b : Bench) (n : Nat) : Decidable (b.Reaches n) :=
  inferInstanceAs (Decidable (_ ∧ _))

/-- What many rounds do if every command succeeds: they go through the phases one by one.
The generator runs in the phase of the invariants, on the artifact that the host began
with, if that phase is among them; the host goes on with its output. -/
structure Course (b : Bench) (n : Nat) (done : List Round) (last : Bench) : Prop where
  phases : done.map (fun round => round.phase.toNat) =
    List.range' b.tool.session.phase.toNat n
  commands : ∀ round ∈ done, round.commands =
    if round.phase = b.tool.controller.invariantPhase then
      [b.tool.controller.invariants.commandFor b.artifact] else []
  artifact : last.artifact =
    if b.Reaches n then b.tool.controller.invariants.outputFor b.artifact else b.artifact
  ran : last.around.commands = b.around.commands ++
    if b.Reaches n then [b.tool.controller.invariants.commandFor b.artifact] else []

/-- No round at all leaves everything as it is. -/
theorem Course.nil (b : Bench) : b.Course 0 [] b := by
  have hnone : ¬ b.Reaches 0 := fun h => Nat.not_lt.2 h.1 h.2
  refine ⟨rfl, List.forall_mem_nil _, ?_, ?_⟩
  · rw [if_neg hnone]
  · rw [if_neg hnone, List.append_nil]

section Cons

variable {b next last : Bench} {first : Round} {more : List Round} {n : Nat}

/-- The phases of the rounds after the first one are later ones. -/
theorem Course.phases_cons (hfirst : b.Passage first next) (hmore : next.Course n more last)
    (hbound : b.tool.session.phase.toNat + 1 ≤ UInt32.size - 1) :
    (first :: more).map (fun round => round.phase.toNat) =
        List.range' b.tool.session.phase.toNat (n + 1) ∧
      ∀ round ∈ more, b.tool.session.phase.toNat < round.phase.toNat := by
  have hphases := hmore.phases
  rw [hfirst.toNat_phase hbound] at hphases
  constructor
  · rw [List.map_cons, hphases, hfirst.phase, List.range'_succ]
  · intro round hround
    have hmem : round.phase.toNat ∈ more.map (fun round => round.phase.toNat) :=
      List.mem_map_of_mem hround
    rw [hphases, List.mem_range'_1] at hmem
    omega

/-- After a round in which the generator ran, no later round has its phase. -/
theorem Course.cons_of_due (hfirst : b.Passage first next) (hmore : next.Course n more last)
    (hbound : b.tool.session.phase.toNat + 1 ≤ UInt32.size - 1)
    (hdue : b.tool.session.phase = b.tool.controller.invariantPhase) :
    b.Course (n + 1) (first :: more) last := by
  obtain ⟨hphases, hlater⟩ := Course.phases_cons hfirst hmore hbound
  have hreached : b.Reaches (n + 1) := by
    rw [Reaches, ← hdue]
    omega
  have hpast : ¬ next.Reaches n := by
    rw [Reaches, hfirst.controller_eq, hfirst.toNat_phase hbound, ← hdue]
    omega
  have hcommands := hfirst.commands
  have hartifact := hfirst.artifact
  rw [if_pos hdue] at hcommands hartifact
  refine ⟨hphases, ?_, ?_, ?_⟩
  · intro round hround
    rcases List.mem_cons.1 hround with rfl | hround
    · rw [hcommands, hfirst.phase, if_pos hdue]
    · have hne : round.phase ≠ b.tool.controller.invariantPhase := by
        intro h
        have hlt := hlater round hround
        rw [h, hdue] at hlt
        exact Nat.lt_irrefl _ hlt
      rw [hmore.commands round hround, hfirst.controller_eq, if_neg hne, if_neg hne]
  · rw [hmore.artifact, if_neg hpast, if_pos hreached, hartifact]
  · rw [hmore.ran, if_neg hpast, if_pos hreached, hfirst.ran, hcommands, List.append_nil]

/-- A round without the generator leaves everything to the later ones. -/
theorem Course.cons_of_not_due (hfirst : b.Passage first next) (hmore : next.Course n more last)
    (hbound : b.tool.session.phase.toNat + 1 ≤ UInt32.size - 1)
    (hdue : b.tool.session.phase ≠ b.tool.controller.invariantPhase) :
    b.Course (n + 1) (first :: more) last := by
  have hreaches : next.Reaches n ↔ b.Reaches (n + 1) := by
    have hne : b.tool.session.phase.toNat ≠ b.tool.controller.invariantPhase.toNat :=
      fun h => hdue (Phase.ext_toNat h)
    rw [Reaches, Reaches, hfirst.controller_eq, hfirst.toNat_phase hbound]
    omega
  obtain ⟨hphases, -⟩ := Course.phases_cons hfirst hmore hbound
  obtain ⟨-, hrounds, hfinal, hran⟩ := hmore
  have hcommands := hfirst.commands
  have hartifact := hfirst.artifact
  rw [if_neg hdue] at hcommands hartifact
  rw [hfirst.controller_eq, hartifact] at hrounds hfinal hran
  refine ⟨hphases, ?_, ?_, ?_⟩
  · intro round hround
    rcases List.mem_cons.1 hround with rfl | hround
    · rw [hcommands, hfirst.phase, if_neg hdue]
    · exact hrounds round hround
  · simpa only [hreaches] using hfinal
  · simpa only [hreaches, hfirst.ran, hcommands, List.append_nil] using hran

end Cons

/-- If every command succeeds, rounds succeed as long as there are phases. -/
theorem exists_rounds (n : Nat) {b : Bench} (hrunner : b.around.runner.AlwaysSucceeds)
    (hbound : b.tool.session.phase.toNat + n ≤ UInt32.size - 1) :
    ∃ done last, b.rounds n = .ok (done, last) ∧ b.Course n done last := by
  induction n generalizing b with
  | zero => exact ⟨[], b, rfl, Course.nil b⟩
  | succ n ih =>
    obtain ⟨first, next, hround, hfirst⟩ := exists_round hrunner
    have hbound' : b.tool.session.phase.toNat + 1 ≤ UInt32.size - 1 := by omega
    have hnext := hfirst.toNat_phase hbound'
    have hrunner' : next.around.runner.AlwaysSucceeds := by rwa [hfirst.runner]
    obtain ⟨more, last, hrounds, hmore⟩ := ih hrunner' (by omega)
    refine ⟨first :: more, last, by simp only [rounds, hround, hrounds], ?_⟩
    by_cases hdue : b.tool.session.phase = b.tool.controller.invariantPhase
    · exact hmore.cons_of_due hfirst hbound' hdue
    · exact hmore.cons_of_not_due hfirst hbound' hdue

/-! ## The law of rounds -/

/-- In a usable configuration, let a host go through rounds from some phase on, below the
largest number, while every command succeeds.  If the phase of the invariants is among
them, exactly one command runs: that of the generator for the artifact that the host began
with, in the round of that phase; and the host ends with the sibling of the artifact.
Otherwise no command runs, and the host ends with the artifact as it was. -/
theorem generator_runs_once {config : Config} (hvalid : config.validate = .ok ())
    {around : Surroundings} (hrunner : around.runner.AlwaysSucceeds) {first : Phase} {n : Nat}
    (hbound : first.toNat + n ≤ UInt32.size - 1) (id : SessionId) (property : Property)
    (verifier : VerifierConfig) (original : Artifact) :
    ∃ controller done last, Controller.ofConfig config = .ok controller ∧
      rounds n ⟨⟨controller, (Session.opened id property).startingAt first, verifier⟩, around,
        original⟩ = .ok (done, last) ∧
      done.map (fun round => round.phase.toNat) = List.range' first.toNat n ∧
      (∀ round ∈ done, round.commands =
        if round.phase.number = config.invariants.phase then
          [config.invariants.commandFor original] else []) ∧
      (first.toNat ≤ config.invariants.phase.toNat ∧
          config.invariants.phase.toNat < first.toNat + n →
        (∃ round ∈ done, round.phase.number = config.invariants.phase) ∧
          last.around.commands = around.commands ++ [config.invariants.commandFor original] ∧
          last.artifact = original.withReplacedExtension config.invariants.outputSuffix) ∧
      (¬ (first.toNat ≤ config.invariants.phase.toNat ∧
          config.invariants.phase.toNat < first.toNat + n) →
        last.around.commands = around.commands ∧ last.artifact = original) := by
  obtain ⟨controller, hcontroller⟩ := Controller.exists_ofConfig hvalid
  obtain ⟨-, hphase, -, hinvariants, -⟩ := Controller.ofConfig_eq_ok_iff.1 hcontroller
  have hdue (phase : Phase) :
      phase = controller.invariantPhase ↔ phase.number = config.invariants.phase := by
    rw [← hphase]
    exact ⟨congrArg Phase.number, fun h => Phase.ext_toNat (congrArg UInt32.toNat h)⟩
  let b : Bench := ⟨⟨controller, (Session.opened id property).startingAt first, verifier⟩, around,
    original⟩
  obtain ⟨done, last, hrounds, hphases, hcommands, hartifact, hran⟩ :=
    b.exists_rounds n hrunner hbound
  have hreaches : b.Reaches n ↔ first.toNat ≤ config.invariants.phase.toNat ∧
      config.invariants.phase.toNat < first.toNat + n := by
    rw [← hphase]
    exact Iff.rfl
  refine ⟨controller, done, last, hcontroller, hrounds, hphases, ?_, ?_, ?_⟩
  · intro round hround
    rw [hcommands round hround]
    simp only [hdue, hinvariants, b]
  · intro hreached
    rw [if_pos (hreaches.2 hreached)] at hartifact hran
    have hmem : config.invariants.phase.toNat ∈
        done.map (fun round => round.phase.toNat) := by
      rw [hphases, List.mem_range'_1]
      exact hreached
    obtain ⟨round, hround, hnumber⟩ := List.mem_map.1 hmem
    refine ⟨⟨round, hround, UInt32.toNat_inj.1 hnumber⟩, ?_, ?_⟩
    · rw [hran, ← hinvariants]
    · rw [hartifact, ← hinvariants]
      rfl
  · intro hmissed
    rw [if_neg (mt hreaches.1 hmissed)] at hartifact hran
    exact ⟨hran.trans (List.append_nil _), hartifact⟩

/-- Three rounds from phase one on go through the phase of the default invariants. -/
theorem generator_runs_once_in_two :
    let around : Surroundings := { runner := .steady fun _ => .ok .succeeded }
    let invariants := ({} : Config).invariants
    let verifier : VerifierConfig := { name := "klee", llvmVersion := "10.0.1" }
    ({} : Config).validate = .ok () ∧ around.runner.AlwaysSucceeds ∧
      Phase.initial.toNat + 3 ≤ UInt32.size - 1 ∧
      ∃ controller done last, Controller.ofConfig {} = .ok controller ∧
        rounds 3 ⟨⟨controller, (Session.opened ⟨7⟩ ⟨[.unreachCall]⟩).startingAt .initial,
          verifier⟩, around, ⟨"main.bc"⟩⟩ = .ok (done, last) ∧
        done.map (fun round => round.phase.toNat) = [1, 2, 3] ∧
        last.around.commands = [invariants.commandFor ⟨"main.bc"⟩] ∧
        last.artifact = (⟨"main.bc"⟩ : Artifact).withReplacedExtension
          invariants.outputSuffix := by
  intro around invariants verifier
  have hrunner : around.runner.AlwaysSucceeds := fun _ _ => ⟨.succeeded, rfl, rfl⟩
  have hbound : Phase.initial.toNat + 3 ≤ UInt32.size - 1 := by decide
  obtain ⟨controller, done, last, hcontroller, hrounds, hphases, -, hreached, -⟩ :=
    generator_runs_once Config.validate_default hrunner hbound ⟨7⟩ ⟨[.unreachCall]⟩ verifier
      ⟨"main.bc"⟩
  obtain ⟨-, hcommands, hartifact⟩ := hreached (by decide)
  exact ⟨Config.validate_default, hrunner, hbound, controller, done, last, hcontroller, hrounds,
    hphases, hcommands, hartifact⟩

end Bench

end Tool

end PhasedInduction
