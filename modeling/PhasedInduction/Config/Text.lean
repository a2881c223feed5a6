import PhasedInduction.Config.Codec
import PhasedInduction.Toml.Parser
import PhasedInduction.Toml.Printer

/-!
# Configuration texts

A configuration as a TOML document with a section for each of its four parts.  Reading
a text overlays what it says on the defaults and refuses what is not a configuration
and what is not a usable one.

Main results:

- Theorem {lit}`Config.fault?_of_ofText`: a configuration read from a text is usable.
-/

namespace PhasedInduction.Config

/-- The sections of a configuration. -/
def sections (c : Config) : List Toml.Section :=
  [⟨"kinduction", [("max_backedge_count", .number c.induction.maxBackedgeCount.toNat),
      ("k", .number c.induction.k.toNat)]⟩,
    ⟨"invariants", [("program", .text c.invariants.program),
      ("phase", .number c.invariants.phase.toNat),
      ("widening_delay", .number c.invariants.wideningDelay.toNat),
      ("output_suffix", .text c.invariants.outputSuffix)]⟩,
    ⟨"fanout", [("variants", .number c.fanout.variants.toNat),
      ("weight", .number c.fanout.weight.toNat)]⟩,
    ⟨"augmentation", [("priority", .texts (c.augmentation.priority.map PropertyClass.name))]⟩]

/-- The document of a configuration, if the format has all of its numbers. -/
def toText? (c : Config) : Option String :=
  Toml.print? c.sections

/-- The configuration that a root table describes. -/
def ofEntries? (entries : Toml.Entries) : Option Config :=
  ofJson? .toml (.object (Toml.entriesToJson entries))

/-- The configuration of a text. -/
def ofText (text : String) : Except CampaignError Config :=
  match (Toml.parse? text).bind ofEntries? with
  | none => .error (.serialization "not a configuration")
  | some c =>
    match c.validate with
    | .ok () => .ok c
    | .error e => .error e

/-- A configuration read from a text is usable. -/
theorem fault?_of_ofText {text : String} {c : Config} (h : ofText text = .ok c) :
    c.fault? = none := by
  unfold ofText at h
  split at h
  · simp at h
  · next d _ =>
    split at h
    · next hv =>
      simp only [Except.ok.injEq] at h
      subst h
      exact (validate_eq_ok_iff d).1 hv
    · simp at h

end PhasedInduction.Config
