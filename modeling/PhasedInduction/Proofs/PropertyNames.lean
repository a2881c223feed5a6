import Mathlib.Data.List.Basic
import Mathlib.Data.List.Forall2
import Mathlib.Data.List.Induction
import PhasedInduction.Property

/-!
# The names in a property text

A property text is cut at its commas.  What stands between the blank ends of a part is a name, and
a part that is blank throughout has none.  The first name that no kind has is blamed, wherever it
stands; a text without names is refused; and otherwise each kind is kept where it is named first.

Main results:

- Theorem {lit}`Text.trim_eq_iff_isCore`: trimming leaves what stands between the blank ends.
- Theorem {lit}`Property.listsNames_iff`: every text lists the names that are read in it, and no
  others.
- Theorem {lit}`Property.ofKinds_concat`: one more kind is added unless it is there.
- Theorem {lit}`Property.parse_of_listed_names`: the law of reading a property text.
-/

namespace PhasedInduction

/-! ## Between blank ends -/

namespace Text

/-- The core of a text: nothing but blank characters stands around it, and it neither begins nor
ends with one. -/
structure IsCore (core s : List Char) : Prop where
  between : ∃ front back, s = front ++ (core ++ back) ∧ (∀ c ∈ front, isBlank c = true) ∧
    ∀ c ∈ back, isBlank c = true
  first : ∀ c, core.head? = some c → isBlank c = false
  last : ∀ c, core.getLast? = some c → isBlank c = false

variable {s core front back : List Char}

theorem trimEnd_eq_reverse (s : List Char) : trimEnd s = (trimStart s.reverse).reverse := rfl

/-- Only blank characters are dropped at the start. -/
theorem exists_append_trimStart (s : List Char) :
    ∃ front, s = front ++ trimStart s ∧ ∀ c ∈ front, isBlank c = true := by
  refine ⟨s.takeWhile isBlank, List.takeWhile_append_dropWhile.symm, ?_⟩
  intro c hc
  exact List.all_eq_true.mp List.all_takeWhile c hc

/-- Only blank characters are dropped at the end. -/
theorem exists_trimEnd_append (s : List Char) :
    ∃ back, s = trimEnd s ++ back ∧ ∀ c ∈ back, isBlank c = true := by
  obtain ⟨back, hs, hback⟩ := exists_append_trimStart s.reverse
  refine ⟨back.reverse, ?_, ?_⟩
  · rw [trimEnd_eq_reverse, ← List.reverse_append, ← hs, List.reverse_reverse]
  · intro c hc
    exact hback c (List.mem_reverse.mp hc)

/-- Blank characters in front are dropped whatever follows. -/
theorem trimStart_append (h : ∀ c ∈ front, isBlank c = true) (s : List Char) :
    trimStart (front ++ s) = trimStart s :=
  List.dropWhile_append_of_pos h

/-- Blank characters behind are dropped whatever stands before. -/
theorem trimEnd_append (s : List Char) (h : ∀ c ∈ back, isBlank c = true) :
    trimEnd (s ++ back) = trimEnd s := by
  rw [trimEnd_eq_reverse, List.reverse_append, trimStart_append, ← trimEnd_eq_reverse]
  intro c hc
  exact h c (List.mem_reverse.mp hc)

/-- Nothing is dropped at the start of a text whose first character is not blank. -/
theorem trimStart_of_head (h : ∀ c, s.head? = some c → isBlank c = false) : trimStart s = s := by
  cases s with
  | nil => rfl
  | cons c r => simp [trimStart, h c rfl]

/-- Nothing is dropped at the end of a text whose last character is not blank. -/
theorem trimEnd_of_getLast (h : ∀ c, s.getLast? = some c → isBlank c = false) :
    trimEnd s = s := by
  rw [trimEnd_eq_reverse, trimStart_of_head, List.reverse_reverse]
  intro c hc
  exact h c (by rwa [List.head?_reverse] at hc)

/-- The first character that trimming leaves is not blank. -/
theorem isBlank_head_trim {c : Char} (h : (trim s).head? = some c) : isBlank c = false := by
  obtain ⟨back, hs, -⟩ := exists_trimEnd_append (trimStart s)
  obtain ⟨r, hr⟩ := List.head?_eq_some_iff.mp h
  rw [trim] at hr
  rw [hr] at hs
  exact isBlank_head_trimStart hs

/-- The last character that trimming leaves is not blank. -/
theorem isBlank_getLast_trim {c : Char} (h : (trim s).getLast? = some c) : isBlank c = false := by
  rw [trim, trimEnd_eq_reverse, List.getLast?_reverse] at h
  obtain ⟨r, hr⟩ := List.head?_eq_some_iff.mp h
  exact isBlank_head_trimStart hr

/-- Trimming leaves what stands between the blank ends, and that is one text only. -/
theorem trim_eq_iff_isCore : trim s = core ↔ IsCore core s := by
  constructor
  · rintro rfl
    obtain ⟨front, hfront, hblankFront⟩ := exists_append_trimStart s
    obtain ⟨back, hback, hblankBack⟩ := exists_trimEnd_append (trimStart s)
    refine ⟨⟨front, back, ?_, hblankFront, hblankBack⟩, ?_, ?_⟩
    · rw [trim, ← hback, ← hfront]
    · intro c hc
      exact isBlank_head_trim hc
    · intro c hc
      exact isBlank_getLast_trim hc
  · rintro ⟨⟨front, back, rfl, hfront, hback⟩, hfirst, hlast⟩
    rw [trim, trimStart_append hfront]
    cases core with
    | nil =>
      rw [List.nil_append, (trimStart_eq_nil_iff back).mpr hback]
      rfl
    | cons c r =>
      rw [trimStart_of_head, trimEnd_append _ hback, trimEnd_of_getLast hlast]
      intro d hd
      exact hfirst d hd

/-- Every part of a text has its core. -/
theorem forall₂_isCore_iff {cores parts : List (List Char)} :
    List.Forall₂ IsCore cores parts ↔ cores = parts.map trim := by
  rw [← List.forall₂_eq_eq_eq, List.forall₂_map_right_iff]
  constructor
  · intro h
    exact h.imp fun core part hcore => (trim_eq_iff_isCore.mpr hcore).symm
  · intro h
    exact h.imp fun core part hcore => trim_eq_iff_isCore.mp hcore.symm

end Text

/-! ## Names -/

/-- Whether a text is the name of a kind. -/
def PropertyKind.IsName (text : String) : Prop := ∃ kind : PropertyKind, text = kind.name

/-- Different kinds have different names. -/
theorem PropertyKind.name_injective : Function.Injective PropertyKind.name := by
  intro a b h
  have hread := PropertyKind.ofName?_name a
  rw [h, PropertyKind.ofName?_name] at hread
  exact (Option.some.inj hread).symm

/-- Texts are the names of kinds, or there is a first one that is not. -/
theorem PropertyKind.names_cases (names : List String) :
    (∃ kinds : List PropertyKind, names = kinds.map PropertyKind.name) ∨
      ∃ (kinds : List PropertyKind) (unknown : String) (rest : List String),
        names = kinds.map PropertyKind.name ++ unknown :: rest ∧ ¬ IsName unknown := by
  induction names with
  | nil => exact .inl ⟨[], rfl⟩
  | cons name names ih =>
    by_cases hname : IsName name
    · obtain ⟨kind, rfl⟩ := hname
      rcases ih with ⟨kinds, rfl⟩ | ⟨kinds, unknown, rest, rfl, hunknown⟩
      · exact .inl ⟨kind :: kinds, rfl⟩
      · exact .inr ⟨kind :: kinds, unknown, rest, rfl, hunknown⟩
    · exact .inr ⟨[], name, names, rfl, hname⟩

/-- Texts that are all names of kinds are the names of a list of kinds. -/
theorem PropertyKind.exists_map_name {names : List String} (h : ∀ name ∈ names, IsName name) :
    ∃ kinds : List PropertyKind, names = kinds.map PropertyKind.name := by
  rcases names_cases names with hkinds | ⟨kinds, unknown, rest, rfl, hunknown⟩
  · exact hkinds
  · exact absurd (h unknown (List.mem_append_right _ List.mem_cons_self)) hunknown

namespace Property

/-- The names that a text lists: the cores of its parts between commas, in order, as far as they
are not void. -/
def ListsNames (text : String) (names : List String) : Prop :=
  ∃ parts cores : List (List Char),
    parts ≠ [] ∧ (∀ part ∈ parts, ',' ∉ part) ∧ text.toList = Text.join ',' parts ∧
      List.Forall₂ Text.IsCore cores parts ∧
      names.map String.toList = cores.filter fun core => core ≠ []

/-- The names that are read in a text, as lists of characters. -/
theorem map_toList_namesIn (text : String) :
    (namesIn text).map String.toList =
      ((Text.pieces ',' text.toList).map Text.trim).filter fun core => core ≠ [] := by
  have hvoid : ∀ piece : List Char,
      String.ofList (Text.trim piece) ≠ "" ↔ Text.trim piece ≠ [] := by
    intro piece
    rw [ne_eq, ← String.toList_eq_nil_iff, String.toList_ofList]
  simp only [namesIn, List.filter_map, List.map_map, Function.comp_def, hvoid,
    String.toList_ofList]

/-- Every text lists the names that are read in it, and no others. -/
theorem listsNames_iff {text : String} {names : List String} :
    ListsNames text names ↔ names = namesIn text := by
  constructor
  · rintro ⟨parts, cores, hne, hcomma, htext, hcores, hnames⟩
    have hparts : Text.pieces ',' text.toList = parts := by
      rw [htext, Text.pieces_join hne hcomma]
    have hsame : names.map String.toList = (namesIn text).map String.toList := by
      rw [map_toList_namesIn, hparts, ← Text.forall₂_isCore_iff.mp hcores, hnames]
    exact List.map_injective_iff.mpr (fun a b h => String.toList_inj.mp h) hsame
  · rintro rfl
    exact ⟨Text.pieces ',' text.toList, (Text.pieces ',' text.toList).map Text.trim,
      Text.pieces_ne_nil ',' _, fun part hpart => Text.not_mem_of_mem_pieces hpart,
      (Text.join_pieces ',' _).symm, Text.forall₂_isCore_iff.mpr rfl, map_toList_namesIn text⟩

/-! ## Kinds -/

theorem readKind_name (kind : PropertyKind) : readKind kind.name = .ok kind := by
  rw [readKind, PropertyKind.ofName?_name]

/-- A text that is not the name of a kind is blamed. -/
theorem readKind_of_unknown {name : String} (h : ¬ PropertyKind.IsName name) :
    readKind name = .error (.unknownPropertyKind name) := by
  cases hkind : PropertyKind.ofName? name with
  | none => rw [readKind, hkind]
  | some kind => exact absurd ⟨kind, PropertyKind.ofName?_eq_some_iff.mp hkind⟩ h

/-- The names of kinds are read as those kinds. -/
theorem mapM_readKind_names (kinds : List PropertyKind) :
    (kinds.map PropertyKind.name).mapM readKind = .ok kinds := by
  induction kinds with
  | nil => rfl
  | cons kind kinds ih =>
    rw [List.map_cons, List.mapM_cons, readKind_name, ih]
    rfl

/-- Of several names, the first one that no kind has is blamed. -/
theorem mapM_readKind_of_unknown (kinds : List PropertyKind) {name : String}
    (h : ¬ PropertyKind.IsName name) (rest : List String) :
    (kinds.map PropertyKind.name ++ name :: rest).mapM readKind =
      .error (.unknownPropertyKind name) := by
  rw [List.mapM_append, mapM_readKind_names, List.mapM_cons, readKind_of_unknown h]
  rfl

/-- One more kind is added at the end, unless it is there already. -/
theorem ofKinds_concat (kinds : List PropertyKind) (kind : PropertyKind) :
    (ofKinds (kinds ++ [kind])).kinds =
      if kind ∈ kinds then (ofKinds kinds).kinds else (ofKinds kinds).kinds ++ [kind] := by
  by_cases h : kind ∈ kinds
  · simp [ofKinds, List.eraseDups_append, List.removeAll, h]
  · simp [ofKinds, List.eraseDups_append, List.removeAll, List.eraseDups_cons, h]

/-- The kinds that are kept stand in the order of their first occurrences. -/
theorem pairwise_ofKinds (kinds : List PropertyKind) :
    (ofKinds kinds).kinds.Pairwise fun a b => kinds.idxOf a < kinds.idxOf b := by
  induction kinds using List.reverseRecOn with
  | nil => exact List.Pairwise.nil
  | append_singleton kinds kind ih =>
    -- the first places of the kinds before the last one do not change
    have hplace : ∀ a ∈ (ofKinds kinds).kinds, (kinds ++ [kind]).idxOf a = kinds.idxOf a := by
      intro a ha
      exact List.idxOf_append_of_mem (mem_ofKinds.mp ha)
    have hkept : (ofKinds kinds).kinds.Pairwise fun a b =>
        (kinds ++ [kind]).idxOf a < (kinds ++ [kind]).idxOf b := by
      refine ih.imp_of_mem ?_
      intro a b ha hb hlt
      rwa [hplace a ha, hplace b hb]
    rw [ofKinds_concat]
    by_cases h : kind ∈ kinds
    · rwa [if_pos h]
    · rw [if_neg h, List.pairwise_append]
      refine ⟨hkept, List.pairwise_singleton _ kind, ?_⟩
      intro a ha b hb
      rw [List.mem_singleton.mp hb, hplace a ha, List.idxOf_append_of_notMem h]
      have hlt := List.idxOf_lt_length_iff.mpr (mem_ofKinds.mp ha)
      omega

/-- Of some kinds, some are kept. -/
theorem kinds_ofKinds_ne_nil {kinds : List PropertyKind} (h : kinds ≠ []) :
    (ofKinds kinds).kinds ≠ [] := by
  obtain ⟨kind, rest, rfl⟩ := List.exists_cons_of_ne_nil h
  have hkept : kind ∈ (ofKinds (kind :: rest)).kinds := mem_ofKinds.mpr List.mem_cons_self
  exact List.ne_nil_of_mem hkept

/-- No kind is kept twice. -/
theorem nodup_ofKinds (kinds : List PropertyKind) : (ofKinds kinds).kinds.Nodup := by
  refine (pairwise_ofKinds kinds).imp ?_
  rintro a b hlt rfl
  exact Nat.lt_irrefl _ hlt

/-- Kinds of which none occurs twice are all kept. -/
theorem ofKinds_of_nodup {kinds : List PropertyKind} (h : kinds.Nodup) :
    (ofKinds kinds).kinds = kinds := by
  induction kinds using List.reverseRecOn with
  | nil => rfl
  | append_singleton kinds kind ih =>
    obtain ⟨hkinds, -, hnew⟩ := List.nodup_append.mp h
    have hkind : kind ∉ kinds := fun hmem => hnew kind hmem kind List.mem_cons_self rfl
    rw [ofKinds_concat, if_neg hkind, ih hkinds]

/-- A kind is first named where it first occurs. -/
theorem idxOf_name (kinds : List PropertyKind) (kind : PropertyKind) :
    (kinds.map PropertyKind.name).idxOf kind.name = kinds.idxOf kind := by
  induction kinds with
  | nil => rfl
  | cons other kinds ih =>
    by_cases h : other = kind
    · subst h
      simp
    · have hname : other.name ≠ kind.name := fun heq => h (PropertyKind.name_injective heq)
      rw [List.map_cons, List.idxOf_cons_ne _ hname, List.idxOf_cons_ne _ h, ih]

/-! ## The law of reading -/

/-- A text that lists names of kinds is read as those kinds if there are any. -/
theorem parse_of_names {text : String} {kinds : List PropertyKind}
    (h : namesIn text = kinds.map PropertyKind.name) :
    parse text = if kinds = [] then .error .emptyProperty else .ok (ofKinds kinds) := by
  rw [parse, h, mapM_readKind_names]
  cases kinds <;> simp

/-- In a text that lists names of kinds and then another name, that name is blamed. -/
theorem parse_of_unknown {text unknown : String} {kinds : List PropertyKind} {rest : List String}
    (h : namesIn text = kinds.map PropertyKind.name ++ unknown :: rest)
    (hunknown : ¬ PropertyKind.IsName unknown) :
    parse text = .error (.unknownPropertyKind unknown) := by
  rw [parse, h, mapM_readKind_of_unknown kinds hunknown]

/-- A text that is read lists names of kinds, and at least one. -/
theorem exists_kinds_of_parse {text : String} {p : Property} (h : parse text = .ok p) :
    ∃ kinds, kinds ≠ [] ∧ namesIn text = kinds.map PropertyKind.name ∧ p = ofKinds kinds := by
  rcases PropertyKind.names_cases (namesIn text) with
    ⟨kinds, hnames⟩ | ⟨kinds, unknown, rest, hnames, hunknown⟩
  · rw [parse_of_names hnames] at h
    by_cases hkinds : kinds = []
    · rw [if_pos hkinds] at h
      cases h
    · rw [if_neg hkinds] at h
      exact ⟨kinds, hkinds, hnames, (Except.ok.inj h).symm⟩
  · rw [parse_of_unknown hnames hunknown] at h
    cases h

/-- Every text lists names in one way.  If some name is not that of a kind, the first such name is
blamed.  A text without names is refused.  All other texts are read, and no others: the property
has the named kinds in the order of their first occurrences, at least one of them and none
twice. -/
theorem parse_of_listed_names (text : String) :
    ∃ names, (∀ others, ListsNames text others ↔ others = names) ∧
      (∀ before name after, names = before ++ name :: after →
        (∀ earlier ∈ before, PropertyKind.IsName earlier) → ¬ PropertyKind.IsName name →
          parse text = .error (.unknownPropertyKind name)) ∧
      (names = [] → parse text = .error (.validation "empty property")) ∧
      ((∃ p, parse text = .ok p) ↔
        names ≠ [] ∧ ∀ name ∈ names, PropertyKind.IsName name) ∧
      ∀ p, parse text = .ok p →
        p.kinds ≠ [] ∧ p.kinds.Nodup ∧ (∀ kind, kind ∈ p.kinds ↔ kind.name ∈ names) ∧
          p.kinds.Pairwise fun a b => names.idxOf a.name < names.idxOf b.name := by
  refine ⟨namesIn text, fun others => listsNames_iff, ?_, ?_, ⟨?_, ?_⟩, ?_⟩
  · intro before name after hnames hbefore hname
    obtain ⟨kinds, rfl⟩ := PropertyKind.exists_map_name hbefore
    exact parse_of_unknown hnames hname
  · intro hnames
    have hnone : namesIn text = [].map PropertyKind.name := hnames
    exact parse_of_names hnone
  · rintro ⟨p, hp⟩
    obtain ⟨kinds, hkinds, hnames, -⟩ := exists_kinds_of_parse hp
    rw [hnames]
    constructor
    · simpa using hkinds
    · intro name hname
      obtain ⟨kind, -, rfl⟩ := List.mem_map.mp hname
      exact ⟨kind, rfl⟩
  · rintro ⟨hne, hall⟩
    obtain ⟨kinds, hnames⟩ := PropertyKind.exists_map_name hall
    have hkinds : kinds ≠ [] := by
      rintro rfl
      exact hne hnames
    exact ⟨ofKinds kinds, by rw [parse_of_names hnames, if_neg hkinds]⟩
  · intro p hp
    obtain ⟨kinds, hkinds, hnames, rfl⟩ := exists_kinds_of_parse hp
    rw [hnames]
    refine ⟨kinds_ofKinds_ne_nil hkinds, nodup_ofKinds kinds, ?_, ?_⟩
    · intro kind
      rw [mem_ofKinds, List.mem_map_of_injective PropertyKind.name_injective]
    · simp only [idxOf_name]
      exact pairwise_ofKinds kinds

/-- Of two unknown names the first one is blamed, without the blanks around it, and a void part
is none.  Where all names are known, one that is repeated counts once. -/
theorem parse_of_listed_names_with_blanks :
    let refused := "\u2003no-overflow,, bogus\t,x"
    let read := "termination , ,unreach-call,\u00a0termination"
    ListsNames refused ["no-overflow", "bogus", "x"] ∧
      parse refused = .error (.unknownPropertyKind "bogus") ∧
      ListsNames read ["termination", "unreach-call", "termination"] ∧
      ∃ p, parse read = .ok p ∧ p.kinds.Nodup ∧ .unreachCall ∈ p.kinds := by
  intro refused read
  have hrefused : ListsNames refused ["no-overflow", "bogus", "x"] :=
    listsNames_iff.mpr (by decide +kernel)
  have hread : ListsNames read ["termination", "unreach-call", "termination"] :=
    listsNames_iff.mpr (by decide +kernel)
  obtain ⟨names, hnames, hunknown, -⟩ := parse_of_listed_names refused
  obtain rfl := (hnames _).mp hrefused
  obtain ⟨others, hothers, -, -, hsome, hkinds⟩ := parse_of_listed_names read
  obtain rfl := (hothers _).mp hread
  have hbogus : ¬ PropertyKind.IsName "bogus" := by
    rintro ⟨kind, hkind⟩
    cases kind <;> simp [PropertyKind.name] at hkind
  have hall : ∀ name ∈ ["termination", "unreach-call", "termination"],
      PropertyKind.IsName name := by
    intro name hname
    simp only [List.mem_cons, List.not_mem_nil, or_false] at hname
    rcases hname with rfl | rfl | rfl
    · exact ⟨.termination, rfl⟩
    · exact ⟨.unreachCall, rfl⟩
    · exact ⟨.termination, rfl⟩
  refine ⟨hrefused, ?_, hread, ?_⟩
  · refine hunknown ["no-overflow"] "bogus" ["x"] rfl ?_ hbogus
    intro earlier hearlier
    exact ⟨.noOverflow, List.mem_singleton.mp hearlier⟩
  · obtain ⟨p, hp⟩ := hsome.mpr ⟨List.cons_ne_nil _ _, hall⟩
    obtain ⟨-, hnodup, hmem, -⟩ := hkinds p hp
    exact ⟨p, hp, hnodup, (hmem .unreachCall).mpr (by simp [PropertyKind.name])⟩

end Property

end PhasedInduction
