import Mathlib.Data.List.Nodup
import PhasedInduction.Proofs.ConfigRoundTrip
import PhasedInduction.Proofs.FirstFaults

/-!
# Configurations with members left out

Data of a configuration may leave out any of its nine members and whole sections, and it may have
members of other names, at the top and in every section.  What is left out has its default, what is
there has its value, and the rest does not count; no member depends on another one.

A document with such content gives this configuration if it is accepted, and otherwise the error of
its first fault.  The content may be spelled in every way that the grammar has, with any values
among the unknown members, as far as the reader goes: values that nest 80 deep are refused.

Main results:

- Theorem {lit}`Config.eq_without_iff`: the configuration with the defaults of the omitted members,
  member by member.
- Theorem {lit}`Config.ofJson?_of_leaves`: what data without the omitted members gives.
- Theorem {lit}`Config.gives_of_leaves`: what a text of such data gives.
- Theorem {lit}`Config.omitted_members_default`: the law of partial configurations.
-/

namespace PhasedInduction.Config

/-! ## Members of a configuration -/

/-- A section of a configuration. -/
inductive Part where
  | induction
  | invariants
  | fanout
  | augmentation
deriving DecidableEq, Repr

namespace Part

/-- All sections in order. -/
def all : List Part := [induction, invariants, fanout, augmentation]

theorem mem_all (p : Part) : p ∈ all := by
  cases p <;> decide

/-- The name of a section. -/
def name : Part → String
  | induction => "kinduction"
  | invariants => "invariants"
  | fanout => "fanout"
  | augmentation => "augmentation"

theorem name_injective : Function.Injective name := by
  intro p q h
  cases p <;> cases q <;> first | rfl | exact absurd h (by decide)

end Part

/-- A member of a configuration. -/
inductive Field where
  | maxBackedgeCount
  | k
  | program
  | phase
  | wideningDelay
  | outputSuffix
  | variants
  | weight
  | priority
deriving DecidableEq, Repr

namespace Field

/-- All members in order. -/
def all : List Field :=
  [maxBackedgeCount, k, program, phase, wideningDelay, outputSuffix, variants, weight, priority]

theorem mem_all (f : Field) : f ∈ all := by
  cases f <;> decide

/-- The section of a member. -/
def part : Field → Part
  | maxBackedgeCount | k => .induction
  | program | phase | wideningDelay | outputSuffix => .invariants
  | variants | weight => .fanout
  | priority => .augmentation

/-- The name of a member. -/
def name : Field → String
  | maxBackedgeCount => "max_backedge_count"
  | k => "k"
  | program => "program"
  | phase => "phase"
  | wideningDelay => "widening_delay"
  | outputSuffix => "output_suffix"
  | variants => "variants"
  | weight => "weight"
  | priority => "priority"

theorem name_injective : Function.Injective name := by
  have hdistinct : (all.map name).Nodup := by decide
  intro f g h
  exact List.inj_on_of_nodup_map hdistinct f.mem_all g.mem_all h

end Field

/-- The members of a section. -/
def Part.fields (p : Part) : List Field := Field.all.filter fun f => f.part = p

theorem Part.mem_fields {p : Part} {f : Field} : f ∈ p.fields ↔ f.part = p := by
  simp [fields, f.mem_all]

/-- The value of a member as data. -/
def value (c : Config) : Field → Json
  | .maxBackedgeCount => .ofWord32 c.induction.maxBackedgeCount
  | .k => .ofWord32 c.induction.k
  | .program => .string c.invariants.program
  | .phase => .ofWord32 c.invariants.phase
  | .wideningDelay => .ofWord32 c.invariants.wideningDelay
  | .outputSuffix => .string c.invariants.outputSuffix
  | .variants => .ofWord64 c.fanout.variants
  | .weight => .ofWord32 c.fanout.weight
  | .priority => .array (c.augmentation.priority.map PropertyClass.toJson)

/-- A configuration as data has its sections with their members in order. -/
theorem toJson_eq (c : Config) :
    c.toJson = .object (Part.all.map fun p =>
      (p.name, .object (p.fields.map fun f => (f.name, c.value f)))) := rfl

/-- The values of the members tell the configuration. -/
theorem eq_of_value_eq {c d : Config} (h : ∀ f, c.value f = d.value f) : c = d := by
  have hdata : c.toJson = d.toJson := by simp only [toJson_eq, h]
  have hread := congrArg (ofJson? .json) hdata
  simpa only [ofJson?_toJson, Option.some.injEq] using hread

/-! ## Omissions -/

/-- What is left out of a configuration: whole sections, and single members. -/
structure Omission where
  parts : List Part
  fields : List Field

namespace Omission

variable (o : Omission)

/-- A member is left out by itself or with its section. -/
def Omits (f : Field) : Prop := f.part ∈ o.parts ∨ f ∈ o.fields

instance (f : Field) : Decidable (o.Omits f) := inferInstanceAs (Decidable (_ ∨ _))

/-- The default of a member if it is left out, and otherwise what is given. -/
def pick {α : Type} (f : Field) (absent given : α) : α := if o.Omits f then absent else given

/-- What an omission leaves of the members of a section; other members may stand among them. -/
def LeavesIn (c : Config) (p : Part) (members : Members) : Prop :=
  ∀ f : Field, f.part = p →
    members.lookup f.name = if f ∈ o.fields then none else some (c.value f)

/-- What an omission leaves of a configuration; other members may stand among the sections. -/
structure Leaves (c : Config) (members : Members) : Prop where
  omitted : ∀ p ∈ o.parts, members.lookup p.name = none
  kept : ∀ p ∉ o.parts, ∃ inner, members.lookup p.name = some (.object inner) ∧ o.LeavesIn c p inner

end Omission

/-- The configuration with the default of every member that is left out. -/
def without (c : Config) (o : Omission) : Config :=
  let absent : Config := {}
  { induction :=
      { maxBackedgeCount := o.pick .maxBackedgeCount absent.induction.maxBackedgeCount
          c.induction.maxBackedgeCount
        k := o.pick .k absent.induction.k c.induction.k }
    invariants :=
      { program := o.pick .program absent.invariants.program c.invariants.program
        phase := o.pick .phase absent.invariants.phase c.invariants.phase
        wideningDelay := o.pick .wideningDelay absent.invariants.wideningDelay
          c.invariants.wideningDelay
        outputSuffix := o.pick .outputSuffix absent.invariants.outputSuffix
          c.invariants.outputSuffix }
    fanout :=
      { variants := o.pick .variants absent.fanout.variants c.fanout.variants
        weight := o.pick .weight absent.fanout.weight c.fanout.weight }
    augmentation :=
      { priority := o.pick .priority absent.augmentation.priority c.augmentation.priority } }

/-- Every member has its default or its value, whatever becomes of the others. -/
theorem value_without (c : Config) (o : Omission) (f : Field) :
    (c.without o).value f = if o.Omits f then ({} : Config).value f else c.value f := by
  cases f <;> simp only [value, without, Omission.pick] <;> split <;> rfl

/-- The configuration with the defaults of the omitted members is told by its members, one by
one. -/
theorem eq_without_iff (c d : Config) (o : Omission) :
    d = c.without o ↔
      ∀ f, d.value f = if o.Omits f then ({} : Config).value f else c.value f := by
  constructor
  · rintro rfl f
    exact c.value_without o f
  · intro h
    exact eq_of_value_eq fun f => (h f).trans (c.value_without o f).symm

/-! ## Reading data with omissions -/

section Reading

variable {c : Config} {o : Omission} {format : Format}

/-- A member that is left out is read as its default, and otherwise as its value. -/
theorem withDefault_of_lookup {α : Type} {members : Members} {f : Field}
    {read : Json → Option α} {absent given : α} (hpart : f.part ∉ o.parts)
    (h : members.lookup f.name = if f ∈ o.fields then none else some (c.value f))
    (hread : read (c.value f) = some given) :
    Json.withDefault members f.name absent read = some (o.pick f absent given) := by
  have homits : o.Omits f ↔ f ∈ o.fields := or_iff_right hpart
  rw [Json.withDefault, h, Omission.pick, if_congr homits rfl rfl]
  by_cases hfield : f ∈ o.fields <;> simp [hfield, hread]

/-- A section that is left out is read as its default, and otherwise as its members tell. -/
theorem withDefault_of_leaves {α : Type} {members : Members} (h : o.Leaves c members) (p : Part)
    {read : Json → Option α} {absent given : α} (homitted : p ∈ o.parts → absent = given)
    (hkept : p ∉ o.parts → ∀ inner, o.LeavesIn c p inner → read (.object inner) = some given) :
    Json.withDefault members p.name absent read = some given := by
  unfold Json.withDefault
  by_cases hpart : p ∈ o.parts
  · rw [h.omitted p hpart, homitted hpart]
  · obtain ⟨inner, hlookup, hinner⟩ := h.kept p hpart
    rw [hlookup]
    exact hkept hpart inner hinner

/-- The bounds are read member by member. -/
theorem ofJson?_induction (hpart : .induction ∉ o.parts) {inner : Members}
    (h : o.LeavesIn c .induction inner) :
    InductionBounds.ofJson? format (.object inner) = some (c.without o).induction := by
  have hcount : Json.withDefault inner "max_backedge_count" 8 Json.word32? =
      some (c.without o).induction.maxBackedgeCount :=
    withDefault_of_lookup hpart (h .maxBackedgeCount rfl) (Json.word32?_ofWord32 _)
  have hk : Json.withDefault inner "k" 4 Json.word32? = some (c.without o).induction.k :=
    withDefault_of_lookup hpart (h .k rfl) (Json.word32?_ofWord32 _)
  simp [InductionBounds.ofJson?, sectionMembers?, hcount, hk]

/-- The settings of the generator are read member by member. -/
theorem ofJson?_invariants (hpart : .invariants ∉ o.parts) {inner : Members}
    (h : o.LeavesIn c .invariants inner) :
    InvariantSettings.ofJson? format (.object inner) = some (c.without o).invariants := by
  have hprogram : Json.withDefault inner "program" "clam.py" Json.string? =
      some (c.without o).invariants.program :=
    withDefault_of_lookup hpart (h .program rfl) (Json.string?_string _)
  have hphase : Json.withDefault inner "phase" 2 Json.word32? =
      some (c.without o).invariants.phase :=
    withDefault_of_lookup hpart (h .phase rfl) (Json.word32?_ofWord32 _)
  have hdelay : Json.withDefault inner "widening_delay" 32 Json.word32? =
      some (c.without o).invariants.wideningDelay :=
    withDefault_of_lookup hpart (h .wideningDelay rfl) (Json.word32?_ofWord32 _)
  have hsuffix : Json.withDefault inner "output_suffix" "-inv.bc" Json.string? =
      some (c.without o).invariants.outputSuffix :=
    withDefault_of_lookup hpart (h .outputSuffix rfl) (Json.string?_string _)
  simp [InvariantSettings.ofJson?, sectionMembers?, hprogram, hphase, hdelay, hsuffix]

/-- The settings of the planned runs are read member by member. -/
theorem ofJson?_fanout (hpart : .fanout ∉ o.parts) {inner : Members}
    (h : o.LeavesIn c .fanout inner) :
    FanoutSettings.ofJson? format (.object inner) = some (c.without o).fanout := by
  have hvariants : Json.withDefault inner "variants" 2 Json.word64? =
      some (c.without o).fanout.variants :=
    withDefault_of_lookup hpart (h .variants rfl) (Json.word64?_ofWord64 _)
  have hweight : Json.withDefault inner "weight" 333 Json.word32? =
      some (c.without o).fanout.weight :=
    withDefault_of_lookup hpart (h .weight rfl) (Json.word32?_ofWord32 _)
  simp [FanoutSettings.ofJson?, sectionMembers?, hvariants, hweight]

/-- The classes of a priority are read from their names. -/
theorem classes?_value (c : Config) :
    AugmentationPolicy.classes? format (c.value .priority) = some c.augmentation.priority := by
  simp only [value, AugmentationPolicy.classes?, Json.array?_array, Option.bind_some]
  exact Json.mapM_map_of_inverse (AugmentationPolicy.propertyClass?_toJson format) _

/-- The policy has a single member. -/
theorem ofJson?_augmentation (hpart : .augmentation ∉ o.parts) {inner : Members}
    (h : o.LeavesIn c .augmentation inner) :
    AugmentationPolicy.ofJson? format (.object inner) = some (c.without o).augmentation := by
  have hpriority : Json.withDefault inner "priority" [.memorySafety, .termination]
      (AugmentationPolicy.classes? format) = some (c.without o).augmentation.priority :=
    withDefault_of_lookup hpart (h .priority rfl) c.classes?_value
  simp [AugmentationPolicy.ofJson?, sectionMembers?, hpriority]

/-- Data without the omitted members gives the configuration with their defaults. -/
theorem ofJson?_of_leaves {members : Members} (h : o.Leaves c members) :
    ofJson? format (.object members) = some (c.without o) := by
  have hinduction : Json.withDefault members "kinduction" {} (InductionBounds.ofJson? format) =
      some (c.without o).induction := by
    refine withDefault_of_leaves h .induction ?_ fun hpart inner => ofJson?_induction hpart
    intro hpart
    simp [without, Omission.pick, Omission.Omits, Field.part, hpart]
  have hinvariants : Json.withDefault members "invariants" {}
      (InvariantSettings.ofJson? format) = some (c.without o).invariants := by
    refine withDefault_of_leaves h .invariants ?_ fun hpart inner => ofJson?_invariants hpart
    intro hpart
    simp [without, Omission.pick, Omission.Omits, Field.part, hpart]
  have hfanout : Json.withDefault members "fanout" {} (FanoutSettings.ofJson? format) =
      some (c.without o).fanout := by
    refine withDefault_of_leaves h .fanout ?_ fun hpart inner => ofJson?_fanout hpart
    intro hpart
    simp [without, Omission.pick, Omission.Omits, Field.part, hpart]
  have haugmentation : Json.withDefault members "augmentation" {}
      (AugmentationPolicy.ofJson? format) = some (c.without o).augmentation := by
    refine withDefault_of_leaves h .augmentation ?_ fun hpart inner => ofJson?_augmentation hpart
    intro hpart
    simp [without, Omission.pick, Omission.Omits, Field.part, hpart]
  simp [ofJson?, sectionMembers?, hinduction, hinvariants, hfanout, haugmentation]

end Reading

/-! ## Documents with omissions -/

/-- A member as a setting of a document. -/
def setting (c : Config) : Field → Toml.Setting
  | .maxBackedgeCount => .number c.induction.maxBackedgeCount.toNat
  | .k => .number c.induction.k.toNat
  | .program => .text c.invariants.program
  | .phase => .number c.invariants.phase.toNat
  | .wideningDelay => .number c.invariants.wideningDelay.toNat
  | .outputSuffix => .text c.invariants.outputSuffix
  | .variants => .number c.fanout.variants.toNat
  | .weight => .number c.fanout.weight.toNat
  | .priority => .texts (c.augmentation.priority.map PropertyClass.name)

/-- A member as an entry of a table. -/
def entry (c : Config) (f : Field) : String × Toml.Item := (f.name, (c.setting f).item)

/-- A setting of a document denotes the value of its member. -/
theorem toJson_item_setting (c : Config) (f : Field) : (c.setting f).item.toJson = c.value f := by
  cases f with
  | priority => exact congrArg Json.array (itemsToJson_priority c.augmentation.priority)
  | _ => rfl

/-- Only the number of variants may be too large for a document. -/
theorem text?_setting_ne_none {c : Config} {f : Field}
    (h : f = .variants → c.fanout.variants.toNat ≤ Toml.largestInteger) :
    (c.setting f).text? ≠ none := by
  rw [Ne, Toml.Setting.text?_eq_none_iff]
  cases f with
  | variants => simpa [setting] using h
  | _ => simp [setting, Toml.not_largestInteger_lt_word]

/-- A member can be written in a document, unless it is a number of variants that is too large. -/
theorem isWritable_setting {c : Config} {f : Field}
    (h : f = .variants → c.fanout.variants.toNat ≤ Toml.largestInteger) :
    Toml.IsWritable (c.setting f).item := by
  obtain ⟨value, hvalue⟩ := Option.ne_none_iff_exists'.mp (text?_setting_ne_none h)
  exact ⟨1, by decide, value, Toml.spells_text? hvalue⟩

/-- What a document has besides: entries at the top and in the sections, and further tables. -/
structure Additions where
  top : Toml.Entries
  inner : Part → Toml.Entries
  tables : List (String × Toml.Entries)

namespace Additions

variable (more : Additions)

/-- The names that are added at the top. -/
def names : List String := more.top.map Prod.fst ++ more.tables.map Prod.fst

/-- Added names stand only once, and none is the name of a section or of a member of its section.
Added items are any that have a spelling as a value: texts, numbers, dates, arrays and inline
tables. -/
structure AreUnknown : Prop where
  names_distinct : more.names.Nodup
  names_new : ∀ p : Part, p.name ∉ more.names
  inner_distinct : ∀ p, ((more.inner p).map Prod.fst).Nodup
  inner_new : ∀ f : Field, f.name ∉ (more.inner f.part).map Prod.fst
  tables_distinct : ∀ table ∈ more.tables, (table.2.map Prod.fst).Nodup
  top_writable : ∀ e ∈ more.top, Toml.IsWritable e.2
  inner_writable : ∀ p, ∀ e ∈ more.inner p, Toml.IsWritable e.2
  tables_writable : ∀ table ∈ more.tables, ∀ e ∈ table.2, Toml.IsWritable e.2

end Additions

section Documents

variable (c : Config) (o : Omission) (more : Additions)

/-- What is left of a section, with its additions. -/
def entriesWithout (p : Part) : Toml.Entries :=
  (p.fields.filter (· ∉ o.fields)).map c.entry ++ more.inner p

/-- What is left of the sections as tables, with the additions. -/
def tablesWithout : List (String × Toml.Entries) :=
  (Part.all.filter (· ∉ o.parts)).map (fun p => (p.name, c.entriesWithout o more p)) ++ more.tables

/-- A document of what is left of a configuration, with the additions, as statements. -/
def statementsWithout : List Toml.Statement :=
  more.top.map Toml.assignStatement ++ (c.tablesWithout o more).flatMap Toml.tableStatements

variable {o more}

/-- No name stands twice in what is left of a section. -/
theorem nodup_entriesWithout (h : more.AreUnknown) (p : Part) :
    ((c.entriesWithout o more p).map Prod.fst).Nodup := by
  have hfields : (p.fields.filter (· ∉ o.fields)).Nodup := by
    have hall : Field.all.Nodup := by decide
    exact (hall.filter _).filter _
  simp only [entriesWithout, List.map_append, List.map_map]
  refine List.nodup_append.mpr ⟨hfields.map Field.name_injective, h.inner_distinct p, ?_⟩
  rintro key hkey other hother rfl
  obtain ⟨f, hf, rfl⟩ := List.mem_map.mp hkey
  obtain rfl := Part.mem_fields.mp (List.mem_of_mem_filter hf)
  exact h.inner_new f hother

/-- No name stands twice in a table that is left. -/
theorem nodup_of_mem_tablesWithout (h : more.AreUnknown) :
    ∀ table ∈ c.tablesWithout o more, (table.2.map Prod.fst).Nodup := by
  intro table htable
  rcases List.mem_append.mp htable with hleft | hmore
  · obtain ⟨p, -, rfl⟩ := List.mem_map.mp hleft
    exact c.nodup_entriesWithout h p
  · exact h.tables_distinct table hmore

/-- No name stands twice at the top of what is left. -/
theorem nodup_names_tablesWithout (h : more.AreUnknown) :
    (more.top.map Prod.fst ++ (c.tablesWithout o more).map Prod.fst).Nodup := by
  have hparts : ((Part.all.filter (· ∉ o.parts)).map Part.name).Nodup := by
    have hall : Part.all.Nodup := by decide
    exact (hall.filter _).map Part.name_injective
  obtain ⟨htop, htables, hdisjoint⟩ := List.nodup_append.mp h.names_distinct
  have hnew : ∀ name ∈ (Part.all.filter (· ∉ o.parts)).map Part.name, name ∉ more.names := by
    intro name hname
    obtain ⟨p, -, rfl⟩ := List.mem_map.mp hname
    exact h.names_new p
  have hnames : (c.tablesWithout o more).map Prod.fst =
      (Part.all.filter (· ∉ o.parts)).map Part.name ++ more.tables.map Prod.fst := by
    simp only [tablesWithout, List.map_append, List.map_map]
    rfl
  rw [hnames]
  refine List.nodup_append.mpr ⟨htop, List.nodup_append.mpr ⟨hparts, htables, ?_⟩, ?_⟩
  · rintro name hname other hother rfl
    exact hnew name hname (List.mem_append_right _ hother)
  · rintro name hname other hother rfl
    rcases List.mem_append.mp hother with hpart | htable
    · exact hnew name hpart (List.mem_append_left _ hname)
    · exact hdisjoint name hname name htable rfl

/-- What is left, with the additions, builds a table for each of its tables. -/
theorem build_statementsWithout (h : more.AreUnknown) :
    Toml.build (c.statementsWithout o more) =
      some (more.top ++ (c.tablesWithout o more).map Toml.tableEntry) :=
  Toml.build_tables (c.nodup_of_mem_tablesWithout h) (c.nodup_names_tablesWithout h)

/-- What is left, with the additions, has a document, if the number of variants is left out or not
too large. -/
theorem exists_spells_statementsWithout (h : more.AreUnknown)
    (hvariants : ¬o.Omits .variants → c.fanout.variants.toNat ≤ Toml.largestInteger) :
    ∃ text : String, Toml.SpellsDocument (c.statementsWithout o more) text.toList := by
  have hentries : ∀ p ∉ o.parts, ∀ e ∈ c.entriesWithout o more p, Toml.IsWritable e.2 := by
    intro p hp e he
    rcases List.mem_append.mp he with hkept | hadded
    · obtain ⟨f, hf, rfl⟩ := List.mem_map.mp hkept
      refine isWritable_setting ?_
      rintro rfl
      obtain rfl := Part.mem_fields.mp (List.mem_of_mem_filter hf)
      refine hvariants ?_
      rintro (hpart | hfield)
      · exact hp hpart
      · simp [hfield] at hf
    · exact h.inner_writable p e hadded
  refine Toml.exists_spellsDocument fun statement hstatement => ?_
  rcases List.mem_append.mp hstatement with htop | htables
  · obtain ⟨e, he, rfl⟩ := List.mem_map.mp htop
    exact Toml.exists_spells_assignStatement (h.top_writable e he)
  · obtain ⟨table, htable, hmem⟩ := List.mem_flatMap.mp htables
    refine Toml.exists_spells_tableStatements ?_ statement hmem
    rcases List.mem_append.mp htable with hleft | hmore
    · obtain ⟨p, hp, rfl⟩ := List.mem_map.mp hleft
      exact hentries p (by simpa using (List.mem_filter.mp hp).2)
    · exact h.tables_writable table hmore

/-- The member of an object is found by its name, if it is among those that are listed. -/
theorem lookup_map_named {α β : Type} [DecidableEq α] {name : α → String}
    (hname : Function.Injective name) (value : α → β) (l : List α) (a : α) :
    (l.map fun b => (name b, value b)).lookup (name a) =
      if a ∈ l then some (value a) else none := by
  induction l with
  | nil => rfl
  | cons b l ih =>
    rw [List.map_cons, Rows.lookup_cons, ih]
    by_cases h : a = b
    · rw [if_pos (congrArg name h), h, if_pos List.mem_cons_self]
    · rw [if_neg (hname.ne h)]
      simp only [List.mem_cons, h, false_or]

/-- An entry of a table is found as a member of its data. -/
theorem lookup_entriesToJson (entries : Toml.Entries) (name : String) :
    (Toml.entriesToJson entries).lookup name = (entries.lookup name).map Toml.Item.toJson := by
  induction entries with
  | nil => rfl
  | cons entry entries ih =>
    obtain ⟨other, item⟩ := entry
    rw [Toml.entriesToJson, Rows.lookup_cons, Rows.lookup_cons, ih]
    split <;> rfl

/-- The table of a section has the members that are left. -/
theorem leavesIn_entriesWithout (h : more.AreUnknown) (p : Part) :
    o.LeavesIn c p (Toml.entriesToJson (c.entriesWithout o more p)) := by
  rintro f rfl
  have hnew : (more.inner f.part).lookup f.name = none := Toml.lookup_of_not_mem (h.inner_new f)
  have hleft := lookup_map_named Field.name_injective (fun f => (c.setting f).item)
    (f.part.fields.filter (· ∉ o.fields)) f
  rw [lookup_entriesToJson, entriesWithout, List.lookup_append, hnew, Option.or_none]
  refine (congrArg (Option.map Toml.Item.toJson) hleft).trans ?_
  by_cases hfield : f ∈ o.fields <;> simp [hfield, Part.mem_fields, toJson_item_setting]

/-- The tables that are left are what is left of the configuration. -/
theorem leaves_tablesWithout (h : more.AreUnknown) :
    o.Leaves c
      (Toml.entriesToJson (more.top ++ (c.tablesWithout o more).map Toml.tableEntry)) := by
  have hlookup (p : Part) :
      (Toml.entriesToJson (more.top ++ (c.tablesWithout o more).map Toml.tableEntry)).lookup
        p.name = if p ∈ o.parts then none
          else some (.object (Toml.entriesToJson (c.entriesWithout o more p))) := by
    have htop : more.top.lookup p.name = none :=
      Toml.lookup_of_not_mem fun hmem => h.names_new p (List.mem_append_left _ hmem)
    have htables : (more.tables.map Toml.tableEntry).lookup p.name = none := by
      refine Toml.lookup_of_not_mem fun hmem => h.names_new p (List.mem_append_right _ ?_)
      rwa [List.map_map] at hmem
    have hleft := lookup_map_named Part.name_injective
      (fun p => Toml.Item.table .explicit (c.entriesWithout o more p))
      (Part.all.filter (· ∉ o.parts)) p
    rw [lookup_entriesToJson, tablesWithout, List.map_append, List.map_map, List.lookup_append,
      List.lookup_append, htop, htables, Option.or_none, Option.none_or]
    refine (congrArg (Option.map Toml.Item.toJson) hleft).trans ?_
    by_cases hpart : p ∈ o.parts <;> simp [hpart, p.mem_all, Toml.Item.toJson]
  constructor
  · intro p hp
    rw [hlookup, if_pos hp]
  · intro p hp
    refine ⟨_, ?_, c.leavesIn_entriesWithout h p⟩
    rw [hlookup, if_neg hp]

end Documents

/-! ## The law of partial configurations -/

/-- The configuration of a document without the omitted members, if it is accepted. -/
theorem ofText_of_leaves {c : Config} {o : Omission} {text : String} {entries : Toml.Entries}
    (hparse : Toml.parse? text = some entries) (h : o.Leaves c (Toml.entriesToJson entries)) :
    ofText text = (c.without o).validate.map fun _ => c.without o := by
  have hread : (Toml.parse? text).bind ofEntries? = some (c.without o) := by
    rw [hparse, Option.bind_some, ofEntries?, ofJson?_of_leaves h]
  simp only [ofText, hread]
  cases (c.without o).validate <;> rfl

/-- What a text gives as a configuration: the configuration, if it is accepted, and otherwise the
error of its check. -/
def Gives (text : String) (d : Config) : Prop :=
  (d.validate = .ok () → ofText text = .ok d) ∧
    (d.validate ≠ .ok () → ∃ message, d.validate = .error (.config message) ∧
      ofText text = .error (.config message))

/-- A document without the omitted members gives the configuration with their defaults. -/
theorem gives_of_leaves {c : Config} {o : Omission} {text : String} {entries : Toml.Entries}
    (hparse : Toml.parse? text = some entries) (h : o.Leaves c (Toml.entriesToJson entries)) :
    Gives text (c.without o) := by
  have htext := ofText_of_leaves hparse h
  constructor
  · intro hvalid
    rw [htext, hvalid]
    rfl
  · intro hfault
    cases hvalidate : (c.without o).validate with
    | ok accepted => exact absurd hvalidate hfault
    | error e =>
      obtain ⟨fault, -, rfl⟩ := ((c.without o).validate_eq_error_iff e).mp hvalidate
      exact ⟨fault.message, rfl, by rw [htext, hvalidate]; rfl⟩

/-- Let any members and whole sections be left out of a configuration.  There is exactly one
configuration that has the default of each omitted member and the given value of every other one.
Data without the omitted members gives it, in either format and whatever other members the data has.
A text that is read as such data gives it if it is accepted, and otherwise the error of its check.
Every spelling of a document that builds such data is read as this data, whatever other members the
document has and however it is written.  There are such documents, with any other entries and
tables, unless a number of variants is kept that the format does not have. -/
theorem omitted_members_default (c : Config) (o : Omission) :
    ∃ d : Config,
      (∀ e : Config, e = d ↔
        ∀ f, e.value f = if o.Omits f then ({} : Config).value f else c.value f) ∧
      (∀ format members, o.Leaves c members → ofJson? format (.object members) = some d) ∧
      (∀ text entries, Toml.parse? text = some entries →
        o.Leaves c (Toml.entriesToJson entries) → Gives text d) ∧
      (∀ text statements entries, Toml.SpellsDocument statements text.toList →
        Toml.build statements = some entries → o.Leaves c (Toml.entriesToJson entries) →
        Toml.parse? text = some entries ∧ Gives text d) ∧
      ∀ more : Additions, more.AreUnknown →
        (¬o.Omits .variants → c.fanout.variants.toNat ≤ Nat.pow 2 63 - 1) →
        (∃ text : String, Toml.SpellsDocument (c.statementsWithout o more) text.toList) ∧
          ∃ entries, Toml.build (c.statementsWithout o more) = some entries ∧
            o.Leaves c (Toml.entriesToJson entries) := by
  have hlargest : Toml.largestInteger = Nat.pow 2 63 - 1 := by decide
  refine ⟨c.without o, fun e => c.eq_without_iff e o, ?_, ?_, ?_, ?_⟩
  · exact fun format members hleaves => ofJson?_of_leaves hleaves
  · exact fun text entries hparse hleaves => gives_of_leaves hparse hleaves
  · intro text statements entries hspells hbuild hleaves
    have hparse : Toml.parse? text = some entries := (Toml.parse?_of_spells hspells).trans hbuild
    exact ⟨hparse, gives_of_leaves hparse hleaves⟩
  · intro more hmore hvariants
    exact ⟨c.exists_spells_statementsWithout hmore (hlargest ▸ hvariants), _,
      c.build_statementsWithout hmore, c.leaves_tablesWithout hmore⟩

/-- Additions of several kinds: a truth value, a date, arrays in each other and an inline table. -/
def severalAdditions : Additions where
  top := [("debug", .boolean true), ("made on", .dateTime "1979-05-27")]
  inner p := if p = .fanout then [("grid", .array [.array [.boolean false]])] else []
  tables := [("extra", [("limits", .table .inline [("high", .float "1e3")])])]

/-- The additions are unknown to a configuration and can be written. -/
theorem severalAdditions_areUnknown : severalAdditions.AreUnknown where
  names_distinct := by decide
  names_new p := by cases p <;> decide
  inner_distinct p := by cases p <;> decide
  inner_new f := by cases f <;> decide
  tables_distinct := by decide
  top_writable := by
    have hdate : Toml.SpellsDate ['1', '9', '7', '9', '-', '0', '5', '-', '2', '7'] :=
      @Toml.SpellsDate.intro ['1', '9', '7', '9'] ['0', '5'] ['2', '7'] (by decide) (by decide)
        (by decide)
    simp only [severalAdditions, List.forall_mem_cons, List.not_mem_nil, false_implies,
      implies_true, and_true]
    exact ⟨⟨0, by decide, _, .yes⟩, ⟨0, by decide, _, .dateTime (.date hdate)⟩⟩
  inner_writable p := by
    have hgrid : Toml.Spells 2 (.array [.array [.boolean false]]) _ :=
      .array (.last .nil (.array (.last .nil .no .nil)) .nil)
    cases p <;> simp [severalAdditions]
    exact ⟨2, by decide, _, hgrid⟩
  tables_writable := by
    have hfloat : Toml.SpellsFloat ['1', 'e', '3'] :=
      .decimal .none (.digits (.last (by decide)) (by decide)) .none
        (.power (.inl rfl) .none (.last (by decide))) (by decide) fun _ => by decide +kernel
    obtain ⟨k, hkey⟩ := Toml.exists_spellsKey "high"
    have hassign : Toml.SpellsAssignments 0 [([], "high", .float "1e3")] _ :=
      .last hkey (by decide) Toml.isBlank_nil (.float hfloat) Toml.isBlank_nil
    have htable : Toml.Spells 1 (.table .inline [("high", .float "1e3")]) _ := .table hassign rfl
    simp only [severalAdditions, List.forall_mem_cons, List.not_mem_nil, false_implies,
      implies_true, and_true]
    exact ⟨1, by decide, _, htable⟩

/-- A configuration without its second section and one more member, and with all the additions, has
a document, which gives it with the defaults of what is left out. -/
theorem omitted_members_default_with_additions :
    let c : Config :=
      { induction := { maxBackedgeCount := 5, k := 9 }, fanout := { variants := 7 } }
    let o : Omission := ⟨[.invariants], [.k]⟩
    severalAdditions.AreUnknown ∧ ∃ text : String,
      Toml.SpellsDocument (c.statementsWithout o severalAdditions) text.toList ∧
        ofText text =
          .ok { induction := { maxBackedgeCount := 5 }, fanout := { variants := 7 } } := by
  intro c o
  obtain ⟨d, hd, -, -, hgives, hexists⟩ := omitted_members_default c o
  obtain ⟨⟨text, hspells⟩, entries, hbuild, hleaves⟩ :=
    hexists severalAdditions severalAdditions_areUnknown (by decide)
  obtain ⟨-, haccepted, -⟩ := hgives text _ entries hspells hbuild hleaves
  obtain rfl : { induction := { maxBackedgeCount := 5 }, fanout := { variants := 7 } } = d :=
    (hd _).mpr fun f => by cases f <;> rfl
  exact ⟨severalAdditions_areUnknown, text, hspells, haccepted rfl⟩

/-- So many arrays inside each other, around an empty one. -/
def nestedArray : Nat → Toml.Item
  | 0 => .array []
  | n + 1 => .array [nestedArray n]

/-- The text of arrays inside each other. -/
def nestedText : Nat → List Char
  | 0 => ['[', ']']
  | n + 1 => '[' :: (nestedText n ++ [']'])

/-- Arrays inside each other are written with their brackets. -/
theorem spells_nestedArray (n : Nat) : Toml.Spells (n + 1) (nestedArray n) (nestedText n) := by
  induction n with
  | zero =>
    have hnone : Toml.SpellsItems 0 [] [']'] := .nil .nil
    exact .array hnone
  | succ n ih =>
    have hitem : Toml.SpellsItems (n + 1) [nestedArray n] (nestedText n ++ [']']) :=
      .last .nil ih .nil
    exact .array hitem

/-- A document of one unknown member, with 80 arrays inside each other, leaves all of the default
configuration out, which is accepted; but the document is refused. -/
theorem deeply_nested_member_is_refused :
    Toml.Spells 80 (nestedArray 79) (nestedText 79) ∧
      Toml.build [.assign [] "x" (nestedArray 79)] = some [("x", nestedArray 79)] ∧
      Omission.Leaves ⟨Part.all, []⟩ {} (Toml.entriesToJson [("x", nestedArray 79)]) ∧
      ({} : Config).validate = .ok () ∧
      ∃ message, ofText ("x = " ++ String.ofList (nestedText 79)) =
        .error (.serialization message) := by
  refine ⟨spells_nestedArray 79, rfl, ?_, rfl, ?_⟩
  · exact ⟨fun p _ => by cases p <;> rfl, fun p hp => absurd p.mem_all hp⟩
  · have hparse : Toml.parse? ("x = " ++ String.ofList (nestedText 79)) = none := by
      decide +kernel
    exact ⟨_, by rw [ofText, hparse]; rfl⟩

/-- A document with two members of nine, a setting of another section and a section of its own. -/
example :
    let text := "[kinduction]\nweight = 1979-05-27\nk = 6\n[extra]\n[augmentation]\n" ++
      "priority = ['termination', \"memory_safety\"]\n"
    (ofText text).toOption = some
      { induction := { k := 6 }, augmentation := ⟨[.termination, .memorySafety]⟩ } := by
  decide +kernel

end PhasedInduction.Config
