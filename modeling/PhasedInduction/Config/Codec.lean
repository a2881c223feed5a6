import PhasedInduction.Config.Basic

/-!
# Configurations as data

A configuration as an object of four sections.  When it is read, every section and
every member of a section may be missing and then has its default; members of other
names do not count.

Two formats hold such data.  In one of them, a section is an object.  In the other, it
may also be an array that gives the members by position, and a choice may also be an
object whose only member has the name of the choice and is empty.

Main results:

- Theorem {lit}`Config.ofJson?_toJson`: a configuration survives being written and read.
-/

namespace PhasedInduction

/-- The format that data was written in. -/
inductive Config.Format where
  | json
  | toml
deriving DecidableEq, Repr

namespace Config

/-- The members of a section whose fields have the given names.  An array is read by position in
TOML and not at all in JSON. -/
def sectionMembers? (format : Format) (fields : List String) : Json → Option Members
  | .object members => some members
  | .array items => if format = .toml then some (fields.zip items) else none
  | _ => none

/-- The name of a choice. -/
def choice? (format : Format) (j : Json) : Option String :=
  match format, j with
  | .toml, .object [(name, .object [])] => some name
  | .toml, .object [(name, .array [])] => some name
  | .toml, .string name => some name
  | .toml, _ => none
  | .json, j => j.choice?

/-- The property class that a choice names. -/
def propertyClass? (format : Format) (j : Json) : Option PropertyClass :=
  (choice? format j).bind PropertyClass.ofName?

end Config

/-! ## Sections -/

namespace InductionBounds

/-- The names of the fields in order. -/
def fields : List String := ["max_backedge_count", "k"]

/-- The bounds as an object. -/
def toJson (b : InductionBounds) : Json :=
  .object [("max_backedge_count", .ofWord32 b.maxBackedgeCount), ("k", .ofWord32 b.k)]

/-- The bounds of a section. -/
def ofJson? (format : Config.Format) (j : Json) : Option InductionBounds := do
  let absent : InductionBounds := {}
  let members ← Config.sectionMembers? format fields j
  let maxBackedgeCount ← Json.withDefault members "max_backedge_count"
    absent.maxBackedgeCount Json.word32?
  let k ← Json.withDefault members "k" absent.k Json.word32?
  return ⟨maxBackedgeCount, k⟩

@[simp]
theorem ofJson?_toJson (format : Config.Format) (b : InductionBounds) :
    ofJson? format b.toJson = some b := by
  simp [ofJson?, toJson, Config.sectionMembers?, Json.withDefault]

end InductionBounds

namespace InvariantSettings

/-- The names of the fields in order. -/
def fields : List String := ["program", "phase", "widening_delay", "output_suffix"]

/-- The settings as an object. -/
def toJson (s : InvariantSettings) : Json :=
  .object [("program", .string s.program), ("phase", .ofWord32 s.phase),
    ("widening_delay", .ofWord32 s.wideningDelay), ("output_suffix", .string s.outputSuffix)]

/-- The settings of a section. -/
def ofJson? (format : Config.Format) (j : Json) : Option InvariantSettings := do
  let absent : InvariantSettings := {}
  let members ← Config.sectionMembers? format fields j
  let program ← Json.withDefault members "program" absent.program Json.string?
  let phase ← Json.withDefault members "phase" absent.phase Json.word32?
  let wideningDelay ← Json.withDefault members "widening_delay" absent.wideningDelay
    Json.word32?
  let outputSuffix ← Json.withDefault members "output_suffix" absent.outputSuffix
    Json.string?
  return ⟨program, phase, wideningDelay, outputSuffix⟩

@[simp]
theorem ofJson?_toJson (format : Config.Format) (s : InvariantSettings) :
    ofJson? format s.toJson = some s := by
  simp [ofJson?, toJson, Config.sectionMembers?, Json.withDefault]

end InvariantSettings

namespace FanoutSettings

/-- The names of the fields in order. -/
def fields : List String := ["variants", "weight"]

/-- The settings as an object. -/
def toJson (s : FanoutSettings) : Json :=
  .object [("variants", .ofWord64 s.variants), ("weight", .ofWord32 s.weight)]

/-- The settings of a section. -/
def ofJson? (format : Config.Format) (j : Json) : Option FanoutSettings := do
  let absent : FanoutSettings := {}
  let members ← Config.sectionMembers? format fields j
  let variants ← Json.withDefault members "variants" absent.variants Json.word64?
  let weight ← Json.withDefault members "weight" absent.weight Json.word32?
  return ⟨variants, weight⟩

@[simp]
theorem ofJson?_toJson (format : Config.Format) (s : FanoutSettings) :
    ofJson? format s.toJson = some s := by
  simp [ofJson?, toJson, Config.sectionMembers?, Json.withDefault]

end FanoutSettings

namespace AugmentationPolicy

/-- The names of the fields in order. -/
def fields : List String := ["priority"]

/-- The policy as an object. -/
def toJson (p : AugmentationPolicy) : Json :=
  .object [("priority", .array (p.priority.map PropertyClass.toJson))]

/-- The classes of an array. -/
def classes? (format : Config.Format) (j : Json) : Option (List PropertyClass) :=
  j.array?.bind fun items => items.mapM (Config.propertyClass? format)

/-- The policy of a section. -/
def ofJson? (format : Config.Format) (j : Json) : Option AugmentationPolicy := do
  let absent : AugmentationPolicy := {}
  let members ← Config.sectionMembers? format fields j
  let priority ← Json.withDefault members "priority" absent.priority (classes? format)
  return ⟨priority⟩

theorem propertyClass?_toJson (format : Config.Format) (c : PropertyClass) :
    Config.propertyClass? format c.toJson = some c := by
  cases format <;>
    simp [Config.propertyClass?, Config.choice?, PropertyClass.toJson, Json.choice?]

@[simp]
theorem ofJson?_toJson (format : Config.Format) (p : AugmentationPolicy) :
    ofJson? format p.toJson = some p := by
  simp [ofJson?, toJson, Config.sectionMembers?, Json.withDefault, classes?,
    Json.mapM_map_of_inverse (propertyClass?_toJson format)]

end AugmentationPolicy

/-! ## The whole configuration -/

namespace Config

/-- The names of the sections in order. -/
def fields : List String := ["kinduction", "invariants", "fanout", "augmentation"]

/-- A configuration as an object. -/
def toJson (c : Config) : Json :=
  .object [("kinduction", c.induction.toJson), ("invariants", c.invariants.toJson),
    ("fanout", c.fanout.toJson), ("augmentation", c.augmentation.toJson)]

/-- The configuration of data in a format. -/
def ofJson? (format : Format) (j : Json) : Option Config := do
  let absent : Config := {}
  let members ← sectionMembers? format fields j
  let induction ← Json.withDefault members "kinduction" absent.induction
    (InductionBounds.ofJson? format)
  let invariants ← Json.withDefault members "invariants" absent.invariants
    (InvariantSettings.ofJson? format)
  let fanout ← Json.withDefault members "fanout" absent.fanout
    (FanoutSettings.ofJson? format)
  let augmentation ← Json.withDefault members "augmentation" absent.augmentation
    (AugmentationPolicy.ofJson? format)
  return ⟨induction, invariants, fanout, augmentation⟩

/-- A configuration survives being written and read. -/
theorem ofJson?_toJson (format : Format) (c : Config) :
    ofJson? format c.toJson = some c := by
  simp [ofJson?, toJson, sectionMembers?, Json.withDefault]

end Config

end PhasedInduction
