import PhasedInduction.Pass.OptArgs

/-!
# Pass lists as optimiser arguments

The flat arguments of a pass list do not say where one pass ends and the next begins; only the
equals sign does.  So the arguments tell a list exactly if every name is there and has no equals
sign, and every parameter has one.  Such a list is legible.

Reading never gives anything else: whatever the arguments are, the list that is read is legible,
and its arguments are the ones that were read.

Main results:

- Theorem {lit}`PassList.ofOptArgs_eq_ok_iff`: which list arguments denote.
- Theorem {lit}`PassList.isLegible_append`: a list of two parts is legible part by part.
- Theorem {lit}`PassList.reads_back_iff_legible`: the law of rendering and reading.
- Theorem {lit}`PassList.ofOptArgs_append`: arguments that are read apart are read together.
- Theorem {lit}`PassList.read_without_loss`: the law of reading and rendering.
-/

namespace PhasedInduction

/-! ## Single arguments -/

namespace OptArg

/-- A dash and a text that is not void are what the text is by its equals sign. -/
theorem read?_dash {body : String} (h : body ≠ "") :
    read? ("-" ++ body) =
      if '=' ∈ body.toList then some (.param body) else some (.pass body) := by
  have htext : ("-" ++ body).toList = '-' :: body.toList := String.toList_append
  have hbody : String.ofList body.toList = body := String.ofList_toList
  cases hchars : body.toList with
  | nil => exact absurd (String.toList_eq_nil_iff.mp hchars) h
  | cons c cs =>
    rw [hchars] at htext hbody
    simp only [read?, htext, hbody]

/-- Only a dash with something behind it is read. -/
theorem exists_body_of_read? {argument : String} {meant : OptArg}
    (h : read? argument = some meant) : ∃ body, body ≠ "" ∧ argument = "-" ++ body := by
  unfold read? at h
  split at h
  · next c body htext =>
    refine ⟨String.ofList (c :: body), ?_, ?_⟩
    · intro hvoid
      have hchars := congrArg String.toList hvoid
      rw [String.toList_ofList] at hchars
      cases hchars
    · apply String.toList_inj.mp
      simp [htext, String.toList_append]
  · cases h

/-- What is read as the name of a pass is a text without equals sign behind a dash. -/
theorem read?_eq_some_pass_iff {argument name : String} :
    read? argument = some (.pass name) ↔
      argument = "-" ++ name ∧ name ≠ "" ∧ '=' ∉ name.toList := by
  constructor
  · intro h
    obtain ⟨body, hne, rfl⟩ := exists_body_of_read? h
    rw [read?_dash hne] at h
    split at h
    · cases h
    · next hplain =>
      cases h
      exact ⟨rfl, hne, hplain⟩
  · rintro ⟨rfl, hne, hplain⟩
    rw [read?_dash hne, if_neg hplain]

/-- What is read as a parameter is a text with an equals sign behind a dash. -/
theorem read?_eq_some_param_iff {argument text : String} :
    read? argument = some (.param text) ↔ argument = "-" ++ text ∧ '=' ∈ text.toList := by
  constructor
  · intro h
    obtain ⟨body, hne, rfl⟩ := exists_body_of_read? h
    rw [read?_dash hne] at h
    split at h
    · next hequals =>
      cases h
      exact ⟨rfl, hequals⟩
    · cases h
  · rintro ⟨rfl, hequals⟩
    have hne : text ≠ "" := by
      rintro rfl
      cases hequals
    rw [read?_dash hne, if_pos hequals]

end OptArg

/-! ## Legible lists -/

/-- A pass whose arguments tell what it is: its name is there and has no equals sign, and every
parameter has one. -/
structure Pass.IsLegible (p : Pass) : Prop where
  name_ne : p.name ≠ ""
  not_mem_name : '=' ∉ p.name.toList
  mem_param : ∀ param ∈ p.params, '=' ∈ param.toList

instance (p : Pass) : Decidable p.IsLegible :=
  decidable_of_iff (p.name ≠ "" ∧ '=' ∉ p.name.toList ∧ ∀ param ∈ p.params, '=' ∈ param.toList)
    ⟨fun h => ⟨h.1, h.2.1, h.2.2⟩, fun h => ⟨h.name_ne, h.not_mem_name, h.mem_param⟩⟩

/-- A new parameter with a key and a value is legible. -/
theorem Pass.IsLegible.withParam {p : Pass} (h : p.IsLegible) (key value : String) :
    (p.withParam key value).IsLegible := by
  constructor
  · exact h.name_ne
  · exact h.not_mem_name
  · intro param hparam
    rcases List.mem_append.mp hparam with hold | hnew
    · exact h.mem_param param hold
    · rw [List.mem_singleton.mp hnew]
      simp [String.toList_append]

namespace PassList

/-- A list of which every pass is legible. -/
def IsLegible (l : PassList) : Prop := ∀ p ∈ l.passes, p.IsLegible

instance (l : PassList) : Decidable l.IsLegible :=
  inferInstanceAs (Decidable (∀ p ∈ l.passes, p.IsLegible))

@[simp]
theorem isLegible_empty : empty.IsLegible := by
  intro p hp
  cases hp

@[simp]
theorem isLegible_single (p : Pass) : (single p).IsLegible ↔ p.IsLegible :=
  List.forall_mem_singleton

/-- A list of two parts is legible if both parts are. -/
@[simp]
theorem isLegible_append (a b : PassList) :
    (a ++ b).IsLegible ↔ a.IsLegible ∧ b.IsLegible :=
  List.forall_mem_append

/-! ## Reading -/

/-- Reading one more argument adds it to the arguments of the list, and the list stays
legible. -/
theorem legible_of_addOptArg {l l' : PassList} {argument : String} (hl : l.IsLegible)
    (h : l.addOptArg argument = .ok l') :
    l'.IsLegible ∧ l'.toOptArgs = l.toOptArgs ++ [argument] := by
  unfold addOptArg at h
  split at h
  · cases h
  · next name hread =>
    obtain ⟨rfl, hne, hplain⟩ := OptArg.read?_eq_some_pass_iff.mp hread
    cases h
    constructor
    · refine (isLegible_append l (single ⟨name, []⟩)).mpr ⟨hl, (isLegible_single _).mpr ?_⟩
      exact ⟨hne, hplain, by simp⟩
    · exact toOptArgs_append l (single ⟨name, []⟩)
  · next text hread =>
    obtain ⟨rfl, hequals⟩ := OptArg.read?_eq_some_param_iff.mp hread
    unfold addParam? at h
    cases hlast : l.passes.getLast? with
    | none => simp [hlast] at h
    | some p =>
      simp only [hlast, Except.ok.injEq] at h
      obtain ⟨front, hfront⟩ := List.getLast?_eq_some_iff.mp hlast
      obtain rfl : l = ⟨front⟩ ++ single p := PassList.ext hfront
      obtain rfl : (⟨front⟩ : PassList) ++ single { p with params := p.params ++ [text] } = l' := by
        rw [← h]
        exact PassList.ext (by simp)
      obtain ⟨hleft, hlegible⟩ := (isLegible_append _ _).mp hl
      have hp := (isLegible_single p).mp hlegible
      constructor
      · refine (isLegible_append _ _).mpr ⟨hleft, (isLegible_single _).mpr ?_⟩
        refine ⟨hp.name_ne, hp.not_mem_name, ?_⟩
        intro param hparam
        rcases List.mem_append.mp hparam with hold | hnew
        · exact hp.mem_param param hold
        · rwa [List.mem_singleton.mp hnew]
      · simp [toOptArgs, Pass.toOptArgs]

/-- Reading further arguments adds them to the arguments of the list, and the list stays
legible. -/
theorem legible_of_foldlM {l l' : PassList} {arguments : List String} (hl : l.IsLegible)
    (h : arguments.foldlM addOptArg l = .ok l') :
    l'.IsLegible ∧ l'.toOptArgs = l.toOptArgs ++ arguments := by
  induction arguments generalizing l with
  | nil =>
    cases h
    exact ⟨hl, (List.append_nil _).symm⟩
  | cons argument arguments ih =>
    rw [List.foldlM_cons] at h
    cases hstep : l.addOptArg argument with
    | error e =>
      rw [hstep] at h
      cases h
    | ok next =>
      rw [hstep] at h
      obtain ⟨hnext, hargument⟩ := legible_of_addOptArg hl hstep
      obtain ⟨hl', harguments⟩ := ih hnext h
      refine ⟨hl', ?_⟩
      rw [harguments, hargument, List.append_assoc, List.singleton_append]

/-- The parameters of a pass are read one after the other into the last pass. -/
theorem foldlM_params (l : PassList) (name : String) (before params : List String)
    (h : ∀ param ∈ params, '=' ∈ param.toList) :
    (params.map ("-" ++ ·)).foldlM addOptArg (l.push ⟨name, before⟩) =
      .ok (l.push ⟨name, before ++ params⟩) := by
  induction params generalizing before with
  | nil =>
    rw [List.append_nil]
    rfl
  | cons param params ih =>
    have hread : OptArg.read? ("-" ++ param) = some (.param param) :=
      OptArg.read?_eq_some_param_iff.mpr ⟨rfl, h param List.mem_cons_self⟩
    have hstep : (l.push ⟨name, before⟩).addOptArg ("-" ++ param) =
        .ok (l.push ⟨name, before ++ [param]⟩) := by
      simp [addOptArg, hread, addParam?, push]
    rw [List.map_cons, List.foldlM_cons, hstep]
    refine (ih (before ++ [param]) fun p hp => h p (List.mem_cons_of_mem _ hp)).trans ?_
    rw [List.append_assoc, List.singleton_append]

/-- The arguments of a legible pass are read as that pass behind the list. -/
theorem foldlM_toOptArgs (l : PassList) {p : Pass} (h : p.IsLegible) :
    p.toOptArgs.foldlM addOptArg l = .ok (l.push p) := by
  have hread : OptArg.read? ("-" ++ p.name) = some (.pass p.name) :=
    OptArg.read?_eq_some_pass_iff.mpr ⟨rfl, h.name_ne, h.not_mem_name⟩
  have hstep : l.addOptArg ("-" ++ p.name) = .ok (l.push ⟨p.name, []⟩) := by
    simp only [addOptArg, hread]
  rw [Pass.toOptArgs, List.foldlM_cons, hstep]
  exact foldlM_params l p.name [] p.params h.mem_param

/-- The arguments of legible passes are read as those passes behind the list. -/
theorem foldlM_flatMap_toOptArgs (l : PassList) {passes : List Pass}
    (h : ∀ p ∈ passes, p.IsLegible) :
    (passes.flatMap Pass.toOptArgs).foldlM addOptArg l = .ok (l ++ ⟨passes⟩) := by
  induction passes generalizing l with
  | nil => exact congrArg Except.ok (PassList.ext (List.append_nil _).symm)
  | cons p passes ih =>
    rw [List.flatMap_cons, List.foldlM_append, foldlM_toOptArgs l (h p List.mem_cons_self)]
    refine (ih (l.push p) fun q hq => h q (List.mem_cons_of_mem _ hq)).trans ?_
    exact congrArg Except.ok (PassList.ext (by simp [push]))

/-- Arguments denote a list exactly if it is legible and they are its arguments. -/
theorem ofOptArgs_eq_ok_iff {arguments : List String} {l : PassList} :
    ofOptArgs arguments = .ok l ↔ l.IsLegible ∧ l.toOptArgs = arguments := by
  constructor
  · intro h
    obtain ⟨hl, harguments⟩ := legible_of_foldlM isLegible_empty h
    exact ⟨hl, harguments⟩
  · rintro ⟨hl, rfl⟩
    exact foldlM_flatMap_toOptArgs empty hl

/-- The arguments of a list denote that list exactly if it is legible. -/
theorem ofOptArgs_toOptArgs_iff (l : PassList) :
    ofOptArgs l.toOptArgs = .ok l ↔ l.IsLegible := by
  rw [ofOptArgs_eq_ok_iff]
  exact and_iff_left rfl

/-- Legible lists with the same arguments are equal. -/
theorem eq_of_toOptArgs_eq {a b : PassList} (ha : a.IsLegible) (hb : b.IsLegible)
    (h : a.toOptArgs = b.toOptArgs) : a = b := by
  have hread := (ofOptArgs_toOptArgs_iff a).mpr ha
  rw [h, (ofOptArgs_toOptArgs_iff b).mpr hb] at hread
  exact (Except.ok.inj hread).symm

/-- A list is read back from its arguments exactly if every name is there and has no equals sign
and every parameter has one.  No two such lists have the same arguments.  The arguments of any
other list are refused, or they denote another list. -/
theorem reads_back_iff_legible :
    (∀ l : PassList, ofOptArgs l.toOptArgs = .ok l ↔
      ∀ p ∈ l.passes, p.name ≠ "" ∧ '=' ∉ p.name.toList ∧
        ∀ param ∈ p.params, '=' ∈ param.toList) ∧
    (∀ a b : PassList, a.IsLegible → b.IsLegible → a.toOptArgs = b.toOptArgs → a = b) ∧
    ∀ l : PassList, ¬ l.IsLegible →
      (∃ e, ofOptArgs l.toOptArgs = .error e) ∨
        ∃ other, ofOptArgs l.toOptArgs = .ok other ∧ other ≠ l := by
  refine ⟨?_, ?_, ?_⟩
  · intro l
    rw [ofOptArgs_toOptArgs_iff]
    constructor
    · intro h p hp
      exact ⟨(h p hp).name_ne, (h p hp).not_mem_name, (h p hp).mem_param⟩
    · intro h p hp
      exact ⟨(h p hp).1, (h p hp).2.1, (h p hp).2.2⟩
  · intro a b ha hb h
    exact eq_of_toOptArgs_eq ha hb h
  · intro l hl
    cases hread : ofOptArgs l.toOptArgs with
    | error e => exact .inl ⟨e, rfl⟩
    | ok other =>
      refine .inr ⟨other, rfl, ?_⟩
      rintro rfl
      exact hl ((ofOptArgs_toOptArgs_iff other).mp hread)

/-- A parameter without equals sign comes back as a pass of its own. -/
example : ofOptArgs (toOptArgs ⟨[⟨"simplify", ["fast"]⟩]⟩) =
    .ok ⟨[⟨"simplify", []⟩, ⟨"fast", []⟩]⟩ := by rfl

/-! ## What was read -/

/-- Arguments that are read apart are read together, as the passes of both lists. -/
theorem ofOptArgs_append {first second : List String} {a b : PassList}
    (ha : ofOptArgs first = .ok a) (hb : ofOptArgs second = .ok b) :
    ofOptArgs (first ++ second) = .ok (a ++ b) := by
  obtain ⟨hlegibleA, rfl⟩ := ofOptArgs_eq_ok_iff.mp ha
  obtain ⟨hlegibleB, rfl⟩ := ofOptArgs_eq_ok_iff.mp hb
  apply ofOptArgs_eq_ok_iff.mpr
  constructor
  · exact (isLegible_append a b).mpr ⟨hlegibleA, hlegibleB⟩
  · exact toOptArgs_append a b

/-- Reading loses nothing: whatever arguments are read, those of the list are the same texts in
the same order.  Two accepted lists of arguments, one behind the other, are read as the passes of
the first and then those of the second. -/
theorem read_without_loss :
    (∀ (arguments : List String) (l : PassList),
      ofOptArgs arguments = .ok l → l.toOptArgs = arguments) ∧
    ∀ (first second : List String) (a b : PassList),
      ofOptArgs first = .ok a → ofOptArgs second = .ok b →
        ofOptArgs (first ++ second) = .ok (a ++ b) := by
  constructor
  · intro arguments l h
    exact (ofOptArgs_eq_ok_iff.mp h).2
  · intro first second a b ha hb
    exact ofOptArgs_append ha hb

/-- A parameter that stands twice and a second dash are kept, and the last pass of the first list
takes nothing from the second. -/
theorem read_without_loss_of_repeats :
    let first := ["-kind-step-case", "-kind-k=4", "-kind-k=4"]
    let second := ["--find-exits", "-="]
    let a : PassList := ⟨[⟨"kind-step-case", ["kind-k=4", "kind-k=4"]⟩]⟩
    let b : PassList := ⟨[⟨"-find-exits", ["="]⟩]⟩
    ofOptArgs first = .ok a ∧ ofOptArgs second = .ok b ∧
      a.toOptArgs = first ∧ ofOptArgs (first ++ second) = .ok (a ++ b) := by
  intro first second a b
  have ha : ofOptArgs first = .ok a := by rfl
  have hb : ofOptArgs second = .ok b := by rfl
  obtain ⟨hback, happend⟩ := read_without_loss
  exact ⟨ha, hb, hback first a ha, happend first second a b ha hb⟩

end PassList

end PhasedInduction
