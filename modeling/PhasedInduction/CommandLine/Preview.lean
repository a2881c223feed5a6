import PhasedInduction.CommandLine.Report
import PhasedInduction.Controller.Basic
import PhasedInduction.Json.Printer

/-!
# Previews

A preview shows what the first phases of a campaign for a property would run.  It is printed
as lines for people or as data.

Main results:

- Theorem {lit}`Preview.length_entries`: a preview has an entry for each phase.
- Theorem {lit}`Preview.generatesInvariants_iff`: an entry is marked exactly when its phase is the
  one of the invariants.
-/

namespace PhasedInduction

/-- What one phase would run. -/
structure PreviewEntry where
  phase : Phase
  generatesInvariants : Bool
  passes : PassList
deriving DecidableEq, Repr

/-- What the first phases of a campaign would run. -/
structure Preview where
  property : Property
  before : PassList
  entries : List PreviewEntry
deriving DecidableEq, Repr

namespace Preview

open CommandLine

/-- The entry of a phase under a controller. -/
def entryFor (c : Controller) (scheduled : Phase × PassList) : PreviewEntry where
  phase := scheduled.1
  generatesInvariants := scheduled.1 = c.invariantPhase
  passes := scheduled.2

/-- The preview of a property under a controller. -/
def ofController (c : Controller) (property : Property) (phases : UInt32) : Preview where
  property := property
  before := c.selector.preSlicing property.classifier
  entries := (c.schedule property.classifier phases).map (entryFor c)

/-- A preview has an entry for each phase. -/
@[simp]
theorem length_entries (c : Controller) (property : Property) (phases : UInt32) :
    (ofController c property phases).entries.length = phases.toNat := by
  simp [ofController, Controller.schedule, Selector.schedule]

/-- An entry is marked exactly when its phase is the one of the invariants. -/
theorem generatesInvariants_iff {c : Controller} {property : Property} {phases : UInt32}
    {entry : PreviewEntry} (h : entry ∈ (ofController c property phases).entries) :
    entry.generatesInvariants = true ↔ entry.phase = c.invariantPhase := by
  obtain ⟨scheduled, _, rfl⟩ := List.mem_map.1 h
  simp [entryFor]

/-! ## As data -/

/-- An entry as an object. -/
def entryJson (e : PreviewEntry) : Json :=
  .object [("phase", e.phase.toJson), ("generates_invariants", .bool e.generatesInvariants),
    ("passes_after_slicing", e.passes.toJson)]

/-- A preview as an object. -/
def toJson (p : Preview) : Json :=
  .object [("property", p.property.toJson), ("passes_before_slicing", p.before.toJson),
    ("phases", .array (p.entries.map entryJson))]

/-! ## As lines -/

/-- What marks the phase of the invariants. -/
def invariantMark : String := " (+ invariants)"

/-- The line of an entry. -/
def entryLine (style : Style) (e : PreviewEntry) : String :=
  let mark := if e.generatesInvariants then style.paint .cyan invariantMark else ""
  "  phase " ++ e.phase.display ++ mark ++ ": " ++ e.passes.display

/-- The lines of a preview. -/
def lines (style : Style) (p : Preview) : List String :=
  (style.paint .bold "Property:" ++ " " ++ p.property.display) ::
    (style.paint .bold "Before slicing:" ++ " " ++ p.before.display) ::
      p.entries.map (entryLine style)

end Preview

end PhasedInduction
