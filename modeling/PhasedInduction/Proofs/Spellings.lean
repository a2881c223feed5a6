import PhasedInduction.Proofs.ReplacedExtensions

/-!
# Spellings of a path

Texts with the same steps are spellings of one path.  They have the same file name and the same
steps before it, but they may end differently: in the name, in a slash, or in a slash and a dot.

A suffix that is put in place of an extension does not depend on the spelling, and a suffix that
comes behind the text does.  So artifacts with spellings of one path have outputs with spellings
of one path exactly if they end alike, or their file name has a dot.  There is one exception:
with a name of two dots and an extension, it still matters whether the text ends in the name.

Main results:

- Theorem {lit}`Path.fileName?_eq_some_iff_components`: the file name is the last step.
- Theorem {lit}`Artifact.alike_replaced_of_dot`: outputs for a name with a dot.
- Theorem {lit}`Artifact.alike_replaced_of_no_dot`: outputs for all other paths.
- Theorem {lit}`Artifact.alike_replaced_iff`: the law of spellings.
-/

namespace PhasedInduction

namespace Path

/-! ## What spellings share -/

/-- A path without a last part has the step of its anchor only. -/
theorem components_of_lastPart?_eq_none {p : Path} (h : p.lastPart? = none) :
    p.components = components ⟨p.anchor, []⟩ :=
  components_append_void p.anchor [] (isVoid_of_lastPart? h)

/-- A path without steps has no anchor and void parts only. -/
theorem components_eq_nil_iff {p : Path} :
    p.components = [] ↔ p.anchor = .none ∧ ∀ part ∈ p.parts, isVoid part = true := by
  have hparts : p.parts.filterMap Component.ofPart? = [] ↔
      ∀ part ∈ p.parts, isVoid part = true := by
    simp only [List.filterMap_eq_nil_iff, Component.ofPart?_eq_none_iff]
  cases hanchor : p.anchor <;> simp [components, hanchor, hparts]

/-- The file name is the last step, if that is a name. -/
theorem fileName?_eq_some_iff_components {p : Path} {name : List Char} :
    p.fileName? = some name ↔ p.components.getLast? = some (.name name) := by
  cases hlast : p.lastPart? with
  | none =>
    rw [components_of_lastPart?_eq_none hlast]
    cases hanchor : p.anchor <;> simp [fileName?, hlast, components]
  | some split =>
    obtain ⟨front, part, rest⟩ := split
    obtain ⟨step, hstep, hsteps⟩ := (leadsTo_of_lastPart? hlast).exists_step
    rw [hsteps, List.getLast?_concat]
    have hvoid := (lastPart?_eq_some_iff.mp hlast).2.1
    simp only [Component.ofPart?, hvoid, Bool.false_eq_true, if_false] at hstep
    by_cases hup : part = ['.', '.']
    · rw [if_pos hup] at hstep
      cases hstep
      simp [fileName?, hlast, hup]
    · rw [if_neg hup] at hstep
      cases hstep
      simp [fileName?, hlast, hup]

variable {p q : Path} {kept kept' : List (List Char)} {part part' new : List Char}

/-- Spellings have the same file name. -/
theorem fileName?_eq_of_components (h : p.components = q.components) :
    p.fileName? = q.fileName? := by
  apply Option.ext
  intro name
  rw [fileName?_eq_some_iff_components, fileName?_eq_some_iff_components, h]

/-- Spellings have the same last part and the same steps before it. -/
theorem LeadsTo.eq_of_components (hp : p.LeadsTo kept part) (hq : q.LeadsTo kept' part')
    (h : p.components = q.components) :
    components ⟨p.anchor, kept⟩ = components ⟨q.anchor, kept'⟩ ∧ part = part' := by
  obtain ⟨step, hstep, hsteps⟩ := hp.exists_step
  obtain ⟨step', hstep', hsteps'⟩ := hq.exists_step
  rw [hsteps, hsteps'] at h
  obtain ⟨hbefore, hlast⟩ := List.append_inj' h rfl
  cases hlast
  exact ⟨hbefore, Component.ofPart?_injective hstep hstep'⟩

/-! ## Paths without steps -/

/-- Where a path text begins with a part and more, that part is not void unless an anchor stands
before it. -/
theorem IsOfText.isVoid_first (h : p.IsOfText) (hanchor : p.anchor = .none) {first second}
    {rest : List (List Char)} (hparts : p.parts = first :: second :: rest) :
    isVoid first = false := by
  rw [Bool.eq_false_iff, ne_eq, isVoid_iff]
  rintro (rfl | rfl)
  · exact h.not_root hanchor second rest hparts
  · exact h.not_here hanchor _ hparts

/-- Only the empty text has no steps. -/
theorem eq_nil_of_components {path : List Char} (h : (ofText path).components = []) :
    path = [] := by
  have htext := isOfText_ofText path
  obtain ⟨hanchor, hvoid⟩ := components_eq_nil_iff.mp h
  have hroot : (ofText path).anchor ≠ .here := by simp [hanchor]
  obtain ⟨first, more, hparts⟩ := List.exists_cons_of_ne_nil (htext.parts_ne hroot)
  rw [hparts] at hvoid
  have hfirst := hvoid first List.mem_cons_self
  cases more with
  | cons second rest =>
    rw [htext.isVoid_first hanchor hparts] at hfirst
    cases hfirst
  | nil =>
    rcases isVoid_iff.mp hfirst with rfl | rfl
    · rw [← text_ofText path, text, hanchor, hparts]
      rfl
    · exact absurd hparts (htext.not_here hanchor [])

/-- Where there are no steps before the last part, nothing stands there. -/
theorem LeadsTo.eq_nil_of_components (hleads : p.LeadsTo kept part) (hp : p.IsOfText)
    (h : components ⟨p.anchor, kept⟩ = []) : p.anchor = .none ∧ kept = [] := by
  obtain ⟨hanchor, hvoid⟩ := components_eq_nil_iff.mp h
  refine ⟨hanchor, ?_⟩
  cases kept with
  | nil => rfl
  | cons first more =>
    obtain ⟨voids, rest, hlast, -⟩ := hleads
    obtain ⟨second, behind, hbehind⟩ : ∃ second behind,
        more ++ (voids ++ part :: rest) = second :: behind := by
      refine List.exists_cons_of_ne_nil ?_
      simp
    have hparts : p.parts = first :: second :: behind := by
      rw [parts_eq_of_lastPart? hlast, ← hbehind]
      simp
    have hfirst : isVoid first = true := hvoid first List.mem_cons_self
    rw [hp.isVoid_first hanchor hparts] at hfirst
    cases hfirst

/-- With the same last part in place of the old ones, spellings stay spellings of one path. -/
theorem LeadsTo.components_withLast (hleads : p.LeadsTo kept part) (hp : p.IsOfText)
    (hleads' : q.LeadsTo kept' part') (hq : q.IsOfText)
    (h : components ⟨p.anchor, kept⟩ = components ⟨q.anchor, kept'⟩) (hnew : '/' ∉ new) :
    (ofText (text ⟨p.anchor, kept ++ [new]⟩)).components =
      (ofText (text ⟨q.anchor, kept' ++ [new]⟩)).components := by
  by_cases hnil : components ⟨p.anchor, kept⟩ = []
  · -- The new part is the whole text, and may be a single dot.
    obtain ⟨hanchor, rfl⟩ := hleads.eq_nil_of_components hp hnil
    obtain ⟨hanchor', rfl⟩ := hleads'.eq_nil_of_components hq (h ▸ hnil)
    rw [hanchor, hanchor']
  · have hpath := hleads.isOfText hp hnew fun hanchor hkept =>
      absurd (by rw [hanchor, hkept]; rfl) hnil
    have hpath' := hleads'.isOfText hq hnew fun hanchor hkept =>
      absurd (by rw [h, hanchor, hkept]; rfl) hnil
    rw [ofText_text hpath, ofText_text hpath', components_append_singleton,
      components_append_singleton, h]

/-! ## Texts behind path texts -/

variable {path other added : List Char}

/-- A single part comes from a text, unless it is a single dot. -/
theorem isOfText_single (hnew : '/' ∉ new) (hdot : new ≠ ['.']) : IsOfText ⟨.none, [new]⟩ := by
  constructor
  · intro part hpart
    rwa [List.mem_singleton.mp hpart]
  · exact fun _ => List.cons_ne_nil new []
  · nofun
  · intro _ rest h
    exact hdot (List.cons.inj h).1

/-- A text behind a path text goes to its last part, unless that is then a single dot and the whole
text. -/
theorem components_ofText_append {front : List (List Char)}
    (hparts : (ofText path).parts = front ++ [part]) (hslash : '/' ∉ added)
    (hdot : (ofText path).anchor = .none → front = [] → part ++ added ≠ ['.']) :
    (ofText (path ++ added)).components =
      components ⟨(ofText path).anchor, front⟩ ++ (Component.ofPart? (part ++ added)).toList := by
  have hpath := isOfText_ofText path
  have hpart : '/' ∉ part := hpath.not_mem part (hparts ▸ List.mem_append_right _ (by simp))
  have hnew := hpath.withLast hparts (by simpa using ⟨hpart, hslash⟩) hdot
  have hjoined := text_append hparts added
  rw [text_ofText] at hjoined
  rw [hjoined, ofText_text hnew, components_append_singleton]

/-- Where a path text ends in no void part, a text behind it changes the last step. -/
theorem exists_components_append (hend : (ofText path).ending = none) (hadded : added ≠ [])
    (hslash : '/' ∉ added) :
    ∃ before step step', (ofText path).components = before ++ [step] ∧
      Component.ofPart? (step.text ++ added) = some step' ∧
      (ofText (path ++ added)).components = before ++ [step'] := by
  have hpath := isOfText_ofText path
  rcases ending_cases (ofText path) with ⟨hparts, -⟩ | ⟨front, part, hparts, hvoid, -⟩ |
    ⟨_, _, -, -, hsome⟩
  · -- The text is a single dot.
    have hanchor : (ofText path).anchor = .here := by
      by_contra hother
      exact hpath.parts_ne hother hparts
    have hdot : ofText path = ⟨.here, []⟩ := by rw [← hanchor, ← hparts]
    have htext : path = ['.'] := by
      rw [← text_ofText path, hdot]
      rfl
    have hnew : isVoid (['.'] ++ added) = false := isVoid_append (List.cons_ne_nil _ _) hadded
    obtain ⟨step', hstep'⟩ := Component.exists_ofPart?_of_isVoid hnew
    have hsingle : IsOfText ⟨.none, [['.'] ++ added]⟩ :=
      isOfText_single (by simpa using hslash) (ne_dot_of_isVoid hnew)
    refine ⟨[], .here, step', by rw [hdot]; rfl, hstep', ?_⟩
    have hjoined : path ++ added = text ⟨.none, [['.'] ++ added]⟩ := by
      rw [htext]
      rfl
    have hnewsteps := components_append_singleton .none [] (['.'] ++ added)
    rw [hstep'] at hnewsteps
    rw [hjoined, ofText_text hsingle]
    exact hnewsteps
  · have hlast : (ofText path).lastPart? = some (front, part, []) :=
      lastPart?_eq_some_iff.mpr ⟨hparts, hvoid, nofun⟩
    have hleads := leadsTo_of_lastPart? hlast
    obtain ⟨step, hstep, hsteps⟩ := hleads.exists_step
    have hnew : isVoid (part ++ added) = false := isVoid_append (ne_nil_of_isVoid hvoid) hadded
    obtain ⟨step', hstep'⟩ := Component.exists_ofPart?_of_isVoid hnew
    refine ⟨_, step, step', hsteps, by rwa [Component.text_of_ofPart? hstep], ?_⟩
    rw [components_ofText_append hparts hslash fun _ _ => ne_dot_of_isVoid hnew, hstep']
    rfl
  · rw [hend] at hsome
    cases hsome

/-- Where a path text ends in a void part, a text behind it goes to that part and the steps
stay. -/
theorem components_append_of_ending {void : List Char} (hend : (ofText path).ending = some void)
    (hsteps : (ofText path).components ≠ []) (hslash : '/' ∉ added) :
    isVoid void = true ∧ (ofText (path ++ added)).components =
      (ofText path).components ++ (Component.ofPart? (void ++ added)).toList := by
  rcases ending_cases (ofText path) with ⟨-, hnone⟩ | ⟨_, _, -, -, hnone⟩ |
    ⟨front, part, hparts, hvoid, hsome⟩
  · rw [hend] at hnone
    cases hnone
  · rw [hend] at hnone
    cases hnone
  rw [hend] at hsome
  cases hsome
  have hbefore : (ofText path).components = components ⟨(ofText path).anchor, front⟩ := by
    rw [← components_append_void (ofText path).anchor front (List.forall_mem_singleton.mpr hvoid),
      ← hparts]
  refine ⟨hvoid, ?_⟩
  rw [hbefore]
  exact components_ofText_append hparts hslash fun hanchor hfront =>
    absurd (by rw [hbefore, hanchor, hfront]; rfl) hsteps

/-- A text behind a part makes it stand for another step. -/
theorem Component.eq_nil_of_ofPart?_append {step : Component}
    (h : ofPart? (step.text ++ added) = some step) : added = [] := by
  have htext := text_of_ofPart? h
  simpa using htext.symm

/-- The same text behind two void parts gives the same step only behind the same part. -/
theorem Component.eq_of_ofPart?_append {void void' : List Char} (hvoid : isVoid void = true)
    (hvoid' : isVoid void' = true) (hadded : added ≠ [])
    (h : ofPart? (void ++ added) = ofPart? (void' ++ added)) : void = void' := by
  have hdot : ofPart? (['.'] ++ added) ≠ ofPart? added := by
    intro heq
    obtain ⟨step, hstep⟩ :=
      exists_ofPart?_of_isVoid (isVoid_append (List.cons_ne_nil '.' []) hadded)
    have hsame := ofPart?_injective hstep (heq ▸ hstep)
    simpa using congrArg List.length hsame
  rcases isVoid_iff.mp hvoid with rfl | rfl
  · rcases isVoid_iff.mp hvoid' with rfl | rfl
    · rfl
    · exact absurd h.symm hdot
  · rcases isVoid_iff.mp hvoid' with rfl | rfl
    · exact absurd h hdot
    · rfl

/-- With the same text behind them, a spelling that ends in no void part and one that does are
no spellings of one path. -/
theorem components_append_ne {void : List Char}
    (h : (ofText path).components = (ofText other).components)
    (hend : (ofText path).ending = none) (hend' : (ofText other).ending = some void)
    (hadded : added ≠ []) (hslash : '/' ∉ added) :
    (ofText (path ++ added)).components ≠ (ofText (other ++ added)).components := by
  obtain ⟨before, step, step', hsteps, hstep', happend⟩ :=
    exists_components_append hend hadded hslash
  have hsteps' : (ofText other).components ≠ [] := by
    rw [← h, hsteps]
    simp
  obtain ⟨-, happend'⟩ := components_append_of_ending hend' hsteps' hslash
  rw [happend, happend', ← h, hsteps, List.append_assoc]
  intro heq
  rw [List.append_cancel_left_eq, List.singleton_append] at heq
  cases (List.cons.inj heq).1
  exact hadded (Component.eq_nil_of_ofPart?_append hstep')

/-- With the same text behind them, spellings stay spellings of one path exactly if they end in
the same void part, or in none. -/
theorem components_append_eq_iff (h : (ofText path).components = (ofText other).components)
    (hadded : added ≠ []) (hslash : '/' ∉ added) :
    (ofText (path ++ added)).components = (ofText (other ++ added)).components ↔
      (ofText path).ending = (ofText other).ending := by
  by_cases hnil : (ofText path).components = []
  · -- Only the empty text has no steps.
    obtain rfl := eq_nil_of_components hnil
    obtain rfl := eq_nil_of_components (h ▸ hnil)
    exact iff_of_true rfl rfl
  cases hend : (ofText path).ending with
  | none =>
    cases hend' : (ofText other).ending with
    | some void => exact iff_of_false (components_append_ne h hend hend' hadded hslash) nofun
    | none =>
      refine iff_of_true ?_ rfl
      obtain ⟨before, step, new, hsteps, hnew, happend⟩ :=
        exists_components_append hend hadded hslash
      obtain ⟨before', step', new', hsteps', hnew', happend'⟩ :=
        exists_components_append hend' hadded hslash
      rw [hsteps, hsteps'] at h
      obtain ⟨rfl, hlast⟩ := List.append_inj' h rfl
      cases hlast
      rw [happend, happend', Option.some.inj (hnew.symm.trans hnew')]
  | some void =>
    cases hend' : (ofText other).ending with
    | none =>
      exact iff_of_false (components_append_ne h.symm hend' hend hadded hslash).symm nofun
    | some void' =>
      obtain ⟨hvoid, happend⟩ := components_append_of_ending hend hnil hslash
      obtain ⟨hvoid', happend'⟩ := components_append_of_ending hend' (h ▸ hnil) hslash
      rw [happend, happend', h, List.append_cancel_left_eq]
      constructor
      · intro hadds
        have hstep : Component.ofPart? (void ++ added) = Component.ofPart? (void' ++ added) := by
          apply Option.ext
          intro step
          rw [← Option.mem_toList, ← Option.mem_toList, hadds]
        rw [Component.eq_of_ofPart?_append hvoid hvoid' hadded hstep]
      · intro hsame
        rw [Option.some.inj hsame]

/-- A text behind a path text leads elsewhere, unless it is a single dot. -/
theorem components_append_ne_self (hadded : added ≠ []) (hdot : added ≠ ['.'])
    (hslash : '/' ∉ added) : (ofText (path ++ added)).components ≠ (ofText path).components := by
  by_cases hnil : (ofText path).components = []
  · rw [eq_nil_of_components hnil]
    exact fun h => hadded (eq_nil_of_components h)
  cases hend : (ofText path).ending with
  | none =>
    obtain ⟨before, step, new, hsteps, hnew, happend⟩ :=
      exists_components_append hend hadded hslash
    rw [hsteps, happend]
    intro heq
    cases (List.append_inj' heq rfl).2
    exact hadded (Component.eq_nil_of_ofPart?_append hnew)
  | some void =>
    obtain ⟨-, happend⟩ := components_append_of_ending hend hnil hslash
    rw [happend]
    intro heq
    have hvoid : isVoid (void ++ added) = true := by
      rw [← Component.ofPart?_eq_none_iff, ← Option.toList_eq_nil_iff]
      simpa using heq
    by_cases hempty : void = []
    · rw [hempty] at hvoid
      exact (isVoid_iff.mp hvoid).elim hadded hdot
    · rw [isVoid_append hempty hadded] at hvoid
      cases hvoid

end Path

namespace Artifact

variable {a b : Artifact} {suffix : String} {stem ext : List Char}

/-! ## Outputs for spellings -/

/-- The same is kept of a name in two paths, except that a stem of a single dot is kept
differently where only one of the texts ends in the name. -/
theorem keptStem_eq_iff {p q : Path} : keptStem p stem = keptStem q stem ↔
    (stem = ['.'] → (p.ending = none ↔ q.ending = none)) := by
  by_cases hstem : stem = ['.']
  · by_cases hp : p.ending = none <;> by_cases hq : q.ending = none <;>
      simp [keptStem, hstem, hp, hq]
  · simp [keptStem, hstem]

theorem keptStem_ne_nil {p : Path} (h : stem ≠ []) : keptStem p stem ≠ [] := by
  unfold keptStem
  split
  · exact List.cons_ne_nil _ _
  · exact h

/-- With a dot in the file name, the outputs for spellings of one path are such spellings exactly
if the same is kept of the name. -/
theorem alike_replaced_of_dot (h : a.alike b = true)
    (hname : a.route.fileName? = some (stem ++ '.' :: ext)) (hext : '.' ∉ ext)
    (hne : suffix.toList ≠ []) (hslash : '/' ∉ suffix.toList) :
    (a.withReplacedExtension suffix).alike (b.withReplacedExtension suffix) = true ↔
      keptStem a.route stem = keptStem b.route stem := by
  have hsteps := alike_iff.mp h
  have hname' : b.route.fileName? = some (stem ++ '.' :: ext) :=
    (Path.fileName?_eq_of_components hsteps).symm.trans hname
  obtain ⟨kept, hleads, hpath⟩ := exists_path_withReplacedExtension hname hext hslash
  obtain ⟨kept', hleads', hpath'⟩ := exists_path_withReplacedExtension hname' hext hslash
  obtain ⟨hbefore, -⟩ := hleads.eq_of_components hleads' hsteps
  have hnew := not_mem_keptStem_append hname hslash
  have hnew' := not_mem_keptStem_append hname' hslash
  rw [alike_iff, route, route, hpath, hpath']
  constructor
  · intro heq
    by_cases hstem : stem = []
    · simp [keptStem, hstem]
    -- Something is kept of both names, so the last parts are not void.
    have hvoid := Path.isVoid_append (keptStem_ne_nil (p := a.route) hstem) hne
    have hvoid' := Path.isVoid_append (keptStem_ne_nil (p := b.route) hstem) hne
    have htext := hleads.isOfText a.isOfText_route hnew fun _ _ => Path.ne_dot_of_isVoid hvoid
    have htext' := hleads'.isOfText b.isOfText_route hnew' fun _ _ =>
      Path.ne_dot_of_isVoid hvoid'
    obtain ⟨step, hstep⟩ := Path.Component.exists_ofPart?_of_isVoid hvoid
    obtain ⟨step', hstep'⟩ := Path.Component.exists_ofPart?_of_isVoid hvoid'
    rw [Path.ofText_text htext, Path.ofText_text htext', Path.components_append_singleton,
      Path.components_append_singleton, hbefore, List.append_cancel_left_eq, hstep, hstep'] at heq
    cases heq
    exact List.append_cancel_right (Path.Component.ofPart?_injective hstep hstep')
  · intro hkept
    rw [hkept] at hnew ⊢
    exact hleads.components_withLast a.isOfText_route hleads' b.isOfText_route hbefore hnew

/-- Without a dot in the file name, or without a file name, the outputs for spellings of one path
are such spellings exactly if the texts end alike. -/
theorem alike_replaced_of_no_dot (h : a.alike b = true)
    (hdot : ∀ name, a.route.fileName? = some name → '.' ∉ name)
    (hne : suffix.toList ≠ []) (hslash : '/' ∉ suffix.toList) :
    (a.withReplacedExtension suffix).alike (b.withReplacedExtension suffix) = true ↔
      a.route.ending = b.route.ending := by
  have hsteps := alike_iff.mp h
  have hdot' : ∀ name, b.route.fileName? = some name → '.' ∉ name := fun name hname =>
    hdot name ((Path.fileName?_eq_of_components hsteps).trans hname)
  rw [alike_iff, route, route, path_withReplacedExtension_of_no_dot hdot,
    path_withReplacedExtension_of_no_dot hdot']
  exact Path.components_append_eq_iff hsteps hne hslash

/-- A path has a file name with a last dot, or no dot in its file name. -/
theorem dot_cases (a : Artifact) :
    (∃ stem ext, a.route.fileName? = some (stem ++ '.' :: ext) ∧ '.' ∉ ext) ∨
      ∀ name, a.route.fileName? = some name → '.' ∉ name := by
  cases hname : a.route.fileName? with
  | none => exact .inr nofun
  | some name =>
    cases hcut : Text.cutLast '.' name with
    | none =>
      right
      rintro other h
      cases h
      exact Text.cutLast_eq_none_iff.mp hcut
    | some halves =>
      obtain ⟨hparts, hext⟩ := Text.cutLast_eq_some_iff.mp hcut
      exact .inl ⟨halves.1, halves.2, by rw [hparts], hext⟩

/-- Artifacts with spellings of one path have outputs with spellings of one path exactly if both
texts end in the same void part, or in none, or if the file name has a dot.  If only a single dot
stands before its last dot, both texts or none of them must end in the name. -/
theorem alike_replaced_iff (h : a.alike b = true) (hne : suffix ≠ "")
    (hslash : '/' ∉ suffix.toList) :
    (a.withReplacedExtension suffix).alike (b.withReplacedExtension suffix) = true ↔
      a.route.ending = b.route.ending ∨
        ∃ stem ext, a.route.fileName? = some (stem ++ '.' :: ext) ∧ '.' ∉ ext ∧
          (stem = ['.'] → (a.route.ending = none ↔ b.route.ending = none)) := by
  have hchars : suffix.toList ≠ [] := fun hnil => hne (String.toList_eq_nil_iff.mp hnil)
  rcases a.dot_cases with ⟨stem, ext, hname, hext⟩ | hdot
  · rw [alike_replaced_of_dot h hname hext hchars hslash, keptStem_eq_iff]
    constructor
    · exact fun hkept => .inr ⟨stem, ext, hname, hext, hkept⟩
    · rintro (hend | ⟨stem', ext', hname', hext', hkept⟩) hstem
      · rw [hend]
      · rw [hname] at hname'
        obtain ⟨rfl, -⟩ := eq_of_last_dot (Option.some.inj hname') hext hext'
        exact hkept hstem
  · rw [alike_replaced_of_no_dot h hdot hchars hslash]
    constructor
    · exact .inl
    · rintro (hend | ⟨stem, ext, hname, -⟩)
      · exact hend
      · exact absurd (List.mem_append_right stem List.mem_cons_self) (hdot _ hname)

/-- A repeated slash, a dot at the end and a dot inside make no difference for a name with an
extension. -/
theorem alike_replaced_with_extension :
    let a : Artifact := ⟨"work//code.bc/."⟩
    let b : Artifact := ⟨"work/./code.bc"⟩
    a.alike b = true ∧
      (a.withReplacedExtension "-inv.bc").alike (b.withReplacedExtension "-inv.bc") = true := by
  intro a b
  have halike : a.alike b = true := by decide
  refine ⟨halike, (alike_replaced_iff halike (by decide) (by decide)).mpr (.inr ?_)⟩
  exact ⟨"code".toList, "bc".toList, by decide, by decide, by decide⟩

/-- A slash at the end makes a difference for a name without a dot, and for a name of two dots and
an extension. -/
theorem slash_at_end_makes_a_difference :
    (⟨"code/"⟩ : Artifact).alike ⟨"code"⟩ = true ∧
      ((⟨"code/"⟩ : Artifact).withReplacedExtension "-inv.bc").alike
        ((⟨"code"⟩ : Artifact).withReplacedExtension "-inv.bc") = false ∧
      (⟨"..bc/"⟩ : Artifact).alike ⟨"..bc"⟩ = true ∧
      ((⟨"..bc/"⟩ : Artifact).withReplacedExtension "-inv.bc").alike
        ((⟨"..bc"⟩ : Artifact).withReplacedExtension "-inv.bc") = false := by
  decide

end Artifact

end PhasedInduction
