import PhasedInduction.Proofs.EventLog
import PhasedInduction.Proofs.PropertyNames
import PhasedInduction.Proofs.SameKinds

/-!
# Property texts

A property is shown as the names of its kinds with commas between them.  The text lists exactly
these names, so that reading it gives the property without its repetitions, and a property that
was read comes back as it is.  Only the text of a property without kinds is refused.

A log shows the property of a session by this text.  Since repetitions do not matter to the
classes, whoever reads the text again treats the session as it was treated.

Main results:

- Theorem {lit}`Property.namesIn_display`: the text of a property lists the names of its kinds.
- Theorem {lit}`Property.parse_display`: what the text of a property is read as.
- Theorem {lit}`Campaign.sessionStarted_mem_log_iff`: the openings that a log reports.
- Theorem {lit}`Property.display_is_normal_form`: the law of property texts.
-/

namespace PhasedInduction

/-! ## The text of a property -/

/-- Strings that are joined by a character are joined as lists of characters. -/
theorem Text.toList_joined (sep : Char) (names : List String) :
    (joined (String.singleton sep) names).toList = join sep (names.map String.toList) := by
  induction names with
  | nil => rfl
  | cons name names ih =>
    cases names with
    | nil => rfl
    | cons next names =>
      rw [joined, String.toList_append, ih]
      simp [join]

/-- No name of a kind has a comma. -/
theorem PropertyKind.comma_not_mem_name (kind : PropertyKind) : ',' ∉ kind.name.toList := by
  cases kind <;> decide

theorem PropertyKind.toList_name_ne_nil (kind : PropertyKind) : kind.name.toList ≠ [] := by
  cases kind <;> decide

/-- No name of a kind has a blank end. -/
theorem PropertyKind.isCore_name (kind : PropertyKind) :
    Text.IsCore kind.name.toList kind.name.toList := by
  apply Text.trim_eq_iff_isCore.mp
  cases kind <;> rfl

namespace Property

/-- The text of a property lists the names of its kinds. -/
theorem namesIn_display (p : Property) : namesIn p.display = p.kinds.map PropertyKind.name := by
  symm
  apply listsNames_iff.mp
  have htext : p.display.toList =
      Text.join ',' ((p.kinds.map PropertyKind.name).map String.toList) :=
    Text.toList_joined ',' _
  have hname : ∀ part ∈ (p.kinds.map PropertyKind.name).map String.toList,
      ∃ kind : PropertyKind, kind.name.toList = part := by
    intro part hpart
    rw [List.map_map] at hpart
    obtain ⟨kind, -, hkind⟩ := List.mem_map.mp hpart
    exact ⟨kind, hkind⟩
  by_cases hkinds : p.kinds = []
  · -- the text of no kinds is void, and has one void part
    rw [hkinds] at htext ⊢
    refine ⟨[[]], [[]], List.cons_ne_nil _ _, by simp, htext, ?_, by simp⟩
    exact Text.forall₂_isCore_iff.mpr rfl
  · refine ⟨_, (p.kinds.map PropertyKind.name).map String.toList, by simpa using hkinds, ?_,
      htext, ?_, ?_⟩
    · intro part hpart
      obtain ⟨kind, rfl⟩ := hname part hpart
      exact kind.comma_not_mem_name
    · rw [List.forall₂_same]
      intro part hpart
      obtain ⟨kind, rfl⟩ := hname part hpart
      exact kind.isCore_name
    · symm
      rw [List.filter_eq_self]
      intro part hpart
      obtain ⟨kind, rfl⟩ := hname part hpart
      exact decide_eq_true kind.toList_name_ne_nil

/-- What the text of a property is read as: its kinds without repetitions, if it has any. -/
theorem parse_display (p : Property) :
    parse p.display = if p.kinds = [] then .error .emptyProperty else .ok (ofKinds p.kinds) :=
  parse_of_names p.namesIn_display

/-- A property that was read comes back from its text. -/
theorem parse_display_of_parse {text : String} {p : Property} (h : parse text = .ok p) :
    parse p.display = .ok p := by
  obtain ⟨kinds, hkinds, -, rfl⟩ := exists_kinds_of_parse h
  have hback : ofKinds (ofKinds kinds).kinds = ofKinds kinds :=
    congrArg Property.mk (ofKinds_of_nodup (nodup_ofKinds kinds))
  rw [parse_display, if_neg (kinds_ofKinds_ne_nil hkinds), hback]

end Property

/-! ## The openings in a log -/

/-- Work on a session does not report an opening. -/
theorem Work.event?_ne_sessionStarted (w : Work) (invariantPhase : Phase) (id : SessionId)
    (text : String) : w.event? invariantPhase ≠ some (.sessionStarted id text) := by
  intro h
  unfold event? at h
  split at h
  · cases h
  · split at h <;> cases h
  · split at h <;> cases h
  · cases h
  · cases h

namespace Campaign

/-- A request reports an opening if it starts a session, under the text of the property. -/
theorem sessionStarted_mem_eventsOf_iff {c : Campaign} {request : Request} {id : SessionId}
    {text : String} :
    .sessionStarted id text ∈ c.eventsOf request ↔
      ∃ p : Property, request = .start id p ∧ text = p.display := by
  cases request with
  | start other p =>
    have hevents : c.eventsOf (.start other p) = [.sessionStarted other p.display] := rfl
    rw [hevents, List.mem_singleton]
    constructor
    · intro h
      cases h
      exact ⟨p, rfl, rfl⟩
    · rintro ⟨q, hq, rfl⟩
      cases hq
      rfl
  | resume s => simp [eventsOf]
  | on number call =>
    have hquiet : .sessionStarted id text ∉ c.eventsOf (.on number call) := by
      cases hs : c.session? number with
      | none => rw [eventsOf_on_of_closed hs]; exact List.not_mem_nil
      | some s =>
        rw [eventsOf_on_of_open hs, Option.mem_toList]
        exact Work.event?_ne_sessionStarted _ _ id text
    simpa using hquiet

/-- The openings that a log reports are those of the sessions that were started, under the texts
of their properties. -/
theorem sessionStarted_mem_log_iff {c : Campaign} {requests : List Request} {id : SessionId}
    {text : String} :
    .sessionStarted id text ∈ c.log requests ↔
      ∃ p : Property, .start id p ∈ requests ∧ text = p.display := by
  induction requests generalizing c with
  | nil => simp [log]
  | cons request requests ih =>
    rw [log, List.mem_append, sessionStarted_mem_eventsOf_iff, ih]
    constructor
    · rintro (⟨p, rfl, rfl⟩ | ⟨p, hp, rfl⟩)
      · exact ⟨p, List.mem_cons_self, rfl⟩
      · exact ⟨p, List.mem_cons_of_mem _ hp, rfl⟩
    · rintro ⟨p, hp, rfl⟩
      rcases List.mem_cons.mp hp with rfl | hp
      · exact .inl ⟨p, rfl, rfl⟩
      · exact .inr ⟨p, hp, rfl⟩

end Campaign

/-! ## The law of property texts -/

namespace Property

/-- The text of any property is read as its kinds without repetitions, and refused if there are
none.  A property that was read comes back from its text.  A log reports the opening of every
session that is started, and whoever reads the text of the property there, if it has kinds, gets
one of the same classes. -/
theorem display_is_normal_form :
    (∀ p : Property, parse p.display =
      if p.kinds = [] then .error (.validation "empty property") else .ok (ofKinds p.kinds)) ∧
    (∀ text p, parse text = .ok p → parse p.display = .ok p) ∧
    (∀ (c : Campaign) (requests : List Campaign.Request) (id : SessionId) (p : Property),
      .start id p ∈ requests → .sessionStarted id p.display ∈ c.log requests) ∧
    ∀ (c : Campaign) (requests : List Campaign.Request) (id : SessionId) (text : String),
      .sessionStarted id text ∈ c.log requests →
        ∃ p : Property, .start id p ∈ requests ∧ text = p.display ∧
          (p.kinds ≠ [] → ∃ q, parse text = .ok q ∧ q.classifier = p.classifier) := by
  refine ⟨parse_display, fun text p h => parse_display_of_parse h, ?_, ?_⟩
  · intro c requests id p hp
    exact Campaign.sessionStarted_mem_log_iff.mpr ⟨p, hp, rfl⟩
  · intro c requests id text hopening
    obtain ⟨p, hp, rfl⟩ := Campaign.sessionStarted_mem_log_iff.mp hopening
    refine ⟨p, hp, rfl, fun hkinds => ⟨ofKinds p.kinds, ?_, ?_⟩⟩
    · rw [parse_display, if_neg hkinds]
    · exact p.sameKinds_ofKinds.classifier_eq.symm

/-- A property that repeats a kind loses the repetition in its text, and nothing more after that.
The opening of its session shows all its kinds, which are read as a property of the same
classes. -/
theorem display_is_normal_form_of_repeats :
    let p : Property := ⟨[.termination, .noOverflow, .termination]⟩
    let text := "termination,no-overflow,termination"
    let c : Campaign :=
      { controller := ⟨.ofConfig {}, {}, .initial, {}⟩
        around := { runner := .steady fun _ => .error "not found" } }
    let requests : List Campaign.Request := [.resume (.opened ⟨1⟩ ⟨[]⟩), .start ⟨2⟩ p]
    parse p.display = .ok (ofKinds p.kinds) ∧
      parse (ofKinds p.kinds).display = .ok (ofKinds p.kinds) ∧
      .sessionStarted ⟨2⟩ text ∈ c.log requests ∧
      ∃ q, parse text = .ok q ∧ q.classifier = p.classifier := by
  intro p text c requests
  obtain ⟨hdisplay, hback, hstarted, hreread⟩ := display_is_normal_form
  have hkinds : p.kinds ≠ [] := List.cons_ne_nil _ _
  have hp : parse p.display = .ok (ofKinds p.kinds) := by rw [hdisplay, if_neg hkinds]
  have hopening : .sessionStarted ⟨2⟩ text ∈ c.log requests :=
    hstarted c requests ⟨2⟩ p (by simp [requests])
  obtain ⟨other, hother, -, hclasses⟩ := hreread c requests ⟨2⟩ text hopening
  obtain rfl : other = p := by simpa [requests] using hother
  exact ⟨hp, hback _ _ hp, hopening, hclasses hkinds⟩

end Property

end PhasedInduction
