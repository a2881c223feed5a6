import PhasedInduction.Proofs.TomlDocuments
import PhasedInduction.Proofs.UsableConfig

/-!
# Configurations that are written and read

A configuration survives being written to a file and read again, with any texts, numbers and
preferences.  What is not accepted is written too, and the default is read in its place.  The one
number that the format may not hold is the number of variants; then nothing is written, and an
earlier file stays as it was.

Main results:

- Theorem {lit}`Config.toText?_eq_none_iff`: the configurations that cannot be written.
- Theorem {lit}`Config.ofText_of_toText?`: what a written text gives.
- Theorem {lit}`Config.write_then_read`: the law of files.
-/

namespace PhasedInduction

namespace Toml

/-- Names alone tell whether a section is well named. -/
theorem Section.wellNamed_of_names {name : String} {settings : List (String × Setting)}
    (keys : List String) (hkeys : settings.map Prod.fst = keys)
    (h : IsBare name ∧ (∀ key ∈ keys, IsBare key) ∧ keys.Nodup) :
    (⟨name, settings⟩ : Section).WellNamed := by
  subst hkeys
  obtain ⟨hname, hbare, hdistinct⟩ := h
  constructor
  · exact hname
  · intro setting hsetting
    exact hbare _ (List.mem_map_of_mem hsetting)
  · exact hdistinct

/-- Items are seen as data one by one. -/
theorem itemsToJson_eq_map (items : List Item) : itemsToJson items = items.map Item.toJson := by
  induction items with
  | nil => rfl
  | cons item items ih => rw [itemsToJson, ih, List.map_cons]

/-- The format has every number of 32 bits. -/
theorem not_largestInteger_lt_word (n : UInt32) : ¬largestInteger < n.toNat :=
  Nat.not_lt.mpr (Nat.le_trans (Nat.le_of_lt n.toNat_lt) (by decide))

end Toml

namespace Config

/-! ## Texts -/

/-- The sections of a configuration need no quotes, and no name stands twice. -/
theorem wellNamed_sections (c : Config) : ∀ s ∈ c.sections, s.WellNamed := by
  intro s hs
  simp only [sections, List.mem_cons, List.not_mem_nil, or_false] at hs
  rcases hs with rfl | rfl | rfl | rfl
  · exact Toml.Section.wellNamed_of_names InductionBounds.fields rfl (by decide)
  · exact Toml.Section.wellNamed_of_names InvariantSettings.fields rfl (by decide)
  · exact Toml.Section.wellNamed_of_names FanoutSettings.fields rfl (by decide)
  · exact Toml.Section.wellNamed_of_names AugmentationPolicy.fields rfl (by decide)

/-- A configuration cannot be written exactly if it plans more variants than the largest integer
of the format. -/
theorem toText?_eq_none_iff (c : Config) :
    c.toText? = none ↔ Toml.largestInteger < c.fanout.variants.toNat := by
  simp [-Prod.exists, toText?, Toml.print?_eq_none_iff, sections, Toml.not_largestInteger_lt_word]

/-- The names of the classes of a priority are the priority as data. -/
theorem itemsToJson_priority (priority : List PropertyClass) :
    Toml.itemsToJson ((priority.map PropertyClass.name).map Toml.Item.string) =
      priority.map PropertyClass.toJson := by
  rw [Toml.itemsToJson_eq_map, List.map_map, List.map_map]
  rfl

/-- The tables of a written configuration are the configuration as data. -/
theorem ofEntries?_sections (c : Config) :
    ofEntries? (c.sections.map Toml.Section.entry) = some c := by
  have hdata : Json.object (Toml.entriesToJson (c.sections.map Toml.Section.entry)) = c.toJson := by
    simp only [sections, List.map_cons, List.map_nil, Toml.Section.entry, Toml.Section.table,
      Toml.tableEntry, Toml.settingEntry, Toml.Setting.item, Toml.entriesToJson, Toml.Item.toJson,
      itemsToJson_priority]
    rfl
  rw [ofEntries?, hdata, ofJson?_toJson]

/-- What a written text gives: the configuration, if it is accepted. -/
theorem ofText_of_toText? {c : Config} {text : String} (h : c.toText? = some text) :
    ofText text = c.validate.map fun _ => c := by
  have hparse := Toml.parse?_print? c.wellNamed_sections (by
    simp [sections]) h
  have hread : (Toml.parse? text).bind ofEntries? = some c := by
    rw [hparse, Option.bind_some, ofEntries?_sections]
  simp only [ofText, hread]
  cases c.validate <;> rfl

/-! ## Files -/

/-- A configuration that the format can hold is written as its text. -/
theorem exists_write_eq_ok {c : Config} {t : FileTree} {path : String} {text : String}
    (hparents : (t.createParents path.toList).1 = .ok ())
    (hwrite : ((t.createParents path.toList).2.write path.toList text).1 = .ok ())
    (htext : c.toText? = some text) :
    ∃ t', c.write t path = (.ok (), t') ∧ t'.read path.toList = .ok text := by
  unfold write
  generalize t.createParents path.toList = made at hparents hwrite
  obtain ⟨result, t₁⟩ := made
  obtain rfl : result = .ok () := hparents
  cases hfile : t₁.write path.toList text with
  | mk result t' =>
    rw [hfile] at hwrite
    obtain rfl : result = .ok () := hwrite
    refine ⟨t', ?_, ?_⟩
    · simp only [htext, hfile]
    · simp only [FileTree.read, FileTree.nodeAt_of_write hfile]

/-- A configuration that the format cannot hold is not written, and whatever stands at the path
is kept. -/
theorem exists_write_eq_error {c : Config} {t : FileTree} {path : String}
    (hparents : (t.createParents path.toList).1 = .ok ()) (htext : c.toText? = none) :
    ∃ message t', c.write t path = (.error (.serialization message), t') ∧
      ∀ node, t.nodeAt path.toList = .ok node → t'.nodeAt path.toList = .ok node := by
  have hgrows := t.grows_createParents path.toList
  unfold write
  generalize t.createParents path.toList = made at hparents hgrows
  obtain ⟨result, t'⟩ := made
  obtain rfl : result = .ok () := hparents
  refine ⟨"number out of range", t', ?_, ?_⟩
  · simp only [htext]
  · intro node hnode
    exact FileTree.nodeAt_of_grows hgrows hnode

/-- Where the same node stands in two trees, the same configuration is read. -/
theorem read_of_nodeAt {t t' : FileTree} {path : String} {node : Node}
    (h : t.nodeAt path.toList = .ok node) (h' : t'.nodeAt path.toList = .ok node) :
    read t' path = read t path := by
  simp only [read, FileTree.contains, FileTree.read, h, h']

/-- Let the files let a configuration be written to a path, with any texts, numbers and
preferences.  If its variants are not above the largest integer of the format, writing succeeds,
and reading gives the configuration if it is accepted and the default if it is not.  If they are,
writing fails because of the format, and whatever stood at the path is still there. -/
theorem write_then_read (c : Config) {t : FileTree} {path : String}
    (hparents : (t.createParents path.toList).1 = .ok ())
    (hwrite : ∀ content, ((t.createParents path.toList).2.write path.toList content).1 = .ok ()) :
    (c.fanout.variants.toNat ≤ Nat.pow 2 63 - 1 →
      ∃ t', c.write t path = (.ok (), t') ∧
        (c.validate = .ok () → read t' path = c) ∧
        (c.validate ≠ .ok () → read t' path = {})) ∧
    (Nat.pow 2 63 - 1 < c.fanout.variants.toNat →
      ∃ message t', c.write t path = (.error (.serialization message), t') ∧
        ∀ node, t.nodeAt path.toList = .ok node →
          t'.nodeAt path.toList = .ok node ∧ read t' path = read t path) := by
  have hlargest : Toml.largestInteger = Nat.pow 2 63 - 1 := by decide
  constructor
  · intro hfits
    cases htext : c.toText? with
    | none =>
      have hlarge := c.toText?_eq_none_iff.mp htext
      omega
    | some text =>
      obtain ⟨t', hok, hread⟩ := exists_write_eq_ok hparents (hwrite text) htext
      have hgiven : read t' path = (c.validate.map fun _ => c).toOption.getD {} := by
        rw [read_of_ok hread, ofText_of_toText? htext]
      refine ⟨t', hok, ?_, ?_⟩
      · intro hvalid
        rw [hgiven, hvalid]
        rfl
      · intro hfault
        rw [hgiven]
        cases hvalidate : c.validate with
        | ok accepted => exact absurd hvalidate hfault
        | error e => rfl
  · intro hlarge
    have htext := c.toText?_eq_none_iff.mpr (hlargest ▸ hlarge)
    obtain ⟨message, t', herror, hkept⟩ := exists_write_eq_error hparents htext
    refine ⟨message, t', herror, ?_⟩
    intro node hnode
    exact ⟨hkept node hnode, read_of_nodeAt hnode (hkept node hnode)⟩

/-- A program name with quotes, backslashes, codes and line ends, no preferences and as many
variants as the format can hold: the configuration is read back from a new directory.  With one
variant more, an earlier file stays. -/
theorem write_then_read_at_largest :
    let old : String := "[fanout]\nvariants = 1\n"
    let t : FileTree :=
      { nodes := [(["work"], .directory), (["work", "old.toml"], .file old)], here := ["work"] }
    let c : Config :=
      { invariants := { program := "\"clam\"\n\\ \x07 \"\"\"\" \x27\x27\x27\x27 \x7f\r\n\t" }
        fanout := { variants := 9223372036854775807 }
        augmentation := { priority := [] } }
    let larger : Config := { c with fanout := { variants := 9223372036854775808 } }
    c.validate = .ok () ∧ c.fanout.variants.toNat ≤ Nat.pow 2 63 - 1 ∧
      Nat.pow 2 63 - 1 < larger.fanout.variants.toNat ∧
      (∃ t', c.write t "new/campaign.toml" = (.ok (), t') ∧ read t' "new/campaign.toml" = c) ∧
      ∃ message t', larger.write t "old.toml" = (.error (.serialization message), t') ∧
        t'.nodeAt "old.toml".toList = .ok (.file old) := by
  intro old t c larger
  have hvalid : c.validate = .ok () := by
    have hfault : c.fault? = none := by decide +kernel
    exact (validate_eq_ok_iff c).mpr hfault
  have hfits : c.fanout.variants.toNat ≤ Nat.pow 2 63 - 1 := by decide
  have hlarge : Nat.pow 2 63 - 1 < larger.fanout.variants.toNat := by decide
  have hnew : (t.createParents "new/campaign.toml".toList).1 = .ok () := by rfl
  have hold : (t.createParents "old.toml".toList).1 = .ok () := by rfl
  refine ⟨hvalid, hfits, hlarge, ?_, ?_⟩
  · obtain ⟨t', hok, hread, -⟩ := (write_then_read c hnew fun content => rfl).1 hfits
    exact ⟨t', hok, hread hvalid⟩
  · obtain ⟨message, t', herror, hkept⟩ := (write_then_read larger hold fun content => rfl).2 hlarge
    exact ⟨message, t', herror, (hkept _ rfl).1⟩

end Config

end PhasedInduction
