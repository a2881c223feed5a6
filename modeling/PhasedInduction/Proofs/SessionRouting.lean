import Mathlib.Data.List.Induction
import PhasedInduction.Proofs.WrittenData

/-!
# Events and their sessions

An event concerns one session at most.  Most events name the session that they are about.  An error
names none, but it has a text as its context, and belongs to a session if that is the text of the
session's identifier, with hyphens and with its digits in lower case.  Every identifier has one such
text and no two share one, so the text tells the session as well as the identifier does.  Other
texts that are read as the identifier do not: an error in such a context belongs to no session.

Main results:

- Theorem {lit}`Text.hexNumeral_of_hexNumber?`: digits in lower case are the numeral of their
  number.
- Theorem {lit}`SessionId.hasText_iff`: every identifier has one text.
- Theorem {lit}`Event.belongsTo_unique`: an event belongs to one session at most.
- Theorem {lit}`Event.belongs_to_one_session`: the law of events and sessions.
-/

namespace PhasedInduction

/-! ## Texts of identifiers -/

/-- Digits in lower case are the numeral of the number that they denote. -/
theorem Text.hexNumeral_of_hexNumber? {digits : List Char} {n : Nat}
    (hlower : ∀ c ∈ digits, c ∈ hexDigits) (h : hexNumber? digits = some n) :
    hexNumeral digits.length n = digits := by
  -- A numeral is made from its last digit, so the induction is from the end of the digits.
  induction digits using List.reverseRecOn generalizing n with
  | nil => rfl
  | append_singleton digits c ih =>
    obtain ⟨d, rfl⟩ := mem_hexDigits_iff.mp (hlower c (by simp))
    rw [hexNumber?_concat, Option.bind_eq_some_iff] at h
    obtain ⟨m, hm, hn⟩ := h
    rw [hexValue?_hexChar, Option.map_some, Option.some.injEq] at hn
    subst hn
    have hhigher : (16 * m + d.val) / 16 = m := by omega
    have hlast : Fin.ofNat 16 (16 * m + d.val) = d := by
      apply Fin.ext
      rw [Fin.val_ofNat]
      omega
    rw [List.length_append, List.length_singleton, hexNumeral, hhigher, hlast,
      ih (fun c hc => hlower c (List.mem_append_left _ hc)) hm]

namespace SessionId

/-- A text is that of an identifier if it has groups of eight, four, four, four and twelve
hexadecimal digits in lower case, hyphens between them, and the digits denote its number. -/
def HasText (id : SessionId) (text : String) : Prop :=
  ∃ groups : List (List Char), text.toList = Text.join '-' groups ∧
    groups.map List.length = [8, 4, 4, 4, 12] ∧
    (∀ c ∈ groups.flatten, c ∈ Text.hexDigits) ∧
    Text.hexNumber? groups.flatten = some id.bits.toNat

/-- The groups in which the digits of an identifier stand between its hyphens. -/
def groups (ds : List Char) : List (List Char) :=
  [ds.take 8, (ds.drop 8).take 4, (ds.drop 12).take 4, (ds.drop 16).take 4, ds.drop 20]

theorem flatten_groups (ds : List Char) : (groups ds).flatten = ds := by
  simpa [groups] using append_groups ds

theorem map_length_groups {ds : List Char} (h : ds.length = 32) :
    (groups ds).map List.length = [8, 4, 4, 4, 12] := by
  simp [groups, h]

/-- Groups of the right sizes are those between the hyphens. -/
theorem hyphenated_flatten {groups : List (List Char)}
    (h : groups.map List.length = [8, 4, 4, 4, 12]) :
    hyphenated groups.flatten = Text.join '-' groups := by
  obtain ⟨a, _, rfl, ha, h⟩ := List.map_eq_cons_iff.mp h
  obtain ⟨b, _, rfl, hb, h⟩ := List.map_eq_cons_iff.mp h
  obtain ⟨c, _, rfl, hc, h⟩ := List.map_eq_cons_iff.mp h
  obtain ⟨d, _, rfl, hd, h⟩ := List.map_eq_cons_iff.mp h
  obtain ⟨e, _, rfl, he, h⟩ := List.map_eq_cons_iff.mp h
  obtain rfl := List.map_eq_nil_iff.mp h
  have h8 : [a, b, c, d, e].flatten.drop 8 = [b, c, d, e].flatten := List.drop_left' ha
  have h12 : [a, b, c, d, e].flatten.drop 12 = [c, d, e].flatten := by
    rw [← List.drop_drop (i := 4) (j := 8), h8]
    exact List.drop_left' hb
  have h16 : [a, b, c, d, e].flatten.drop 16 = [d, e].flatten := by
    rw [← List.drop_drop (i := 4) (j := 12), h12]
    exact List.drop_left' hc
  have h20 : [a, b, c, d, e].flatten.drop 20 = [e].flatten := by
    rw [← List.drop_drop (i := 4) (j := 16), h16]
    exact List.drop_left' hd
  rw [hyphenated, h8, h12, h16, h20]
  simp only [List.flatten_cons, List.flatten_nil, List.append_nil, List.take_left' ha,
    List.take_left' hb, List.take_left' hc, List.take_left' hd, Text.join, List.append_assoc,
    List.cons_append]

/-- Every identifier has its text and no other one. -/
theorem hasText_iff {id : SessionId} {text : String} : id.HasText text ↔ text = id.text := by
  rw [← String.toList_inj, SessionId.text, String.toList_ofList]
  constructor
  · -- The digits of the text are those of the identifier, because they denote its number.
    rintro ⟨groups, htext, hlengths, hlower, hnumber⟩
    have hlength : groups.flatten.length = 32 := by
      rw [List.length_flatten, hlengths]
      rfl
    have hdigits : id.digits = groups.flatten := by
      rw [digits, ← hlength]
      exact Text.hexNumeral_of_hexNumber? hlower hnumber
    rw [htext, hdigits, hyphenated_flatten hlengths]
  · intro htext
    have hlengths := map_length_groups id.length_digits
    have hdigits := flatten_groups id.digits
    have hsmall : id.bits.toNat < Nat.pow 16 32 := id.bits.isLt
    refine ⟨groups id.digits, ?_, hlengths, ?_, ?_⟩
    · rw [htext, ← hyphenated_flatten hlengths, hdigits]
    · intro c hc
      rw [hdigits] at hc
      exact Text.mem_hexDigits_of_mem_hexNumeral hc
    · rw [hdigits, digits, Text.hexNumber?_hexNumeral, Nat.mod_eq_of_lt hsmall]

end SessionId

/-! ## The session of an event -/

namespace Event

variable {e : Event} {message text : String} {context : Option String}

/-- Only errors name no session. -/
theorem session?_eq_none_iff : e.session? = none ↔ e.kind = .error := by
  cases e <;> simp [session?, kind]

/-- An event that is no error belongs to the session that it names. -/
theorem exists_session?_of_kind_ne (h : e.kind ≠ .error) :
    ∃ own, e.session? = some own ∧ ∀ id, e.belongsTo id = true ↔ id = own := by
  obtain ⟨own, hown⟩ := Option.ne_none_iff_exists'.mp (mt session?_eq_none_iff.mp h)
  refine ⟨own, hown, fun id => ?_⟩
  rw [belongsTo_iff_of_session? hown]
  exact eq_comm

/-- An error belongs to the session whose identifier has its context as text. -/
theorem belongsTo_error_iff_hasText {id : SessionId} :
    (error message context).belongsTo id = true ↔
      ∃ text, context = some text ∧ id.HasText text := by
  rw [belongsTo_error_iff]
  simp [SessionId.hasText_iff]

/-- An event belongs to one session at most. -/
theorem belongsTo_unique {a b : SessionId} (ha : e.belongsTo a = true)
    (hb : e.belongsTo b = true) : a = b := by
  cases e with
  | error message context =>
    rw [belongsTo_error_iff] at ha hb
    exact SessionId.text_injective (Option.some.inj (ha.symm.trans hb))
  | _ =>
    have hown := (belongsTo_iff_of_session? rfl a).mp ha
    exact hown.symm.trans ((belongsTo_iff_of_session? rfl b).mp hb)

/-- A context that is read as an identifier but is not its text belongs to no session. -/
theorem belongsTo_error_eq_false {read : SessionId} (hread : SessionId.ofText? text = some read)
    (hne : text ≠ read.text) (id : SessionId) :
    (error message (some text)).belongsTo id = false := by
  refine Bool.eq_false_iff.mpr fun hbelongs => hne ?_
  have htext : text = id.text := Option.some.inj ((belongsTo_error_iff _ _ _).mp hbelongs)
  rw [htext, SessionId.ofText?_text] at hread
  rw [htext, Option.some.inj hread]

/-- No event belongs to two sessions.  An error belongs to a session exactly if its context is the
text of the session's identifier, which has hyphens between groups of digits in lower case; an error
without context, with another text, or with another spelling of an identifier belongs to none.
Every other event belongs to the session that it names and to that alone.  What is written for an
event, as data or as text on one line or on several, is read as an event that belongs to the same
sessions. -/
theorem belongs_to_one_session :
    (∀ (e : Event) (a b : SessionId), e.belongsTo a = true → e.belongsTo b = true → a = b) ∧
    (∀ (id : SessionId) (text : String), id.HasText text ↔ text = id.text) ∧
    (∀ (message : String) (context : Option String) (id : SessionId),
      (error message context).belongsTo id = true ↔
        ∃ text, context = some text ∧ id.HasText text) ∧
    (∀ (message : String) (context : Option String),
      (∀ text, context = some text → ∀ id : SessionId, ¬ id.HasText text) →
        ∀ id, (error message context).belongsTo id = false) ∧
    (∀ (message text : String) (read : SessionId), SessionId.ofText? text = some read →
      text ≠ read.text → ∀ id, (error message (some text)).belongsTo id = false) ∧
    (∀ e : Event, e.kind ≠ .error →
      ∃ own, e.session? = some own ∧ ∀ id, e.belongsTo id = true ↔ id = own) ∧
    ∀ e : Event,
      ∀ data ∈ [some e.toJson, Json.read? e.toJson.compact, Json.read? e.toJson.pretty],
        ∃ back, data.bind ofJson? = some back ∧ ∀ id, back.belongsTo id = e.belongsTo id := by
  refine ⟨?_, ?_, ?_, ?_, ?_, ?_, ?_⟩
  · intro e a b ha hb
    exact belongsTo_unique ha hb
  · intro id text
    exact SessionId.hasText_iff
  · intro message context id
    exact belongsTo_error_iff_hasText
  · intro message context hother id
    refine Bool.eq_false_iff.mpr fun hbelongs => ?_
    obtain ⟨text, htext, hid⟩ := belongsTo_error_iff_hasText.mp hbelongs
    exact hother text htext id hid
  · intro message text read hread hne id
    exact belongsTo_error_eq_false hread hne id
  · intro e he
    exact exists_session?_of_kind_ne he
  · intro e data hdata
    obtain ⟨hjson, hcompact, hpretty⟩ := Json.givesBack_of_isPlain ofJson?_toJson isPlain_toJson e
    have hback : data.bind ofJson? = some e := by
      rcases List.mem_cons.mp hdata with rfl | hdata
      · exact hjson
      rcases List.mem_cons.mp hdata with rfl | hdata
      · exact hcompact
      rw [List.mem_singleton.mp hdata]
      exact hpretty
    exact ⟨e, hback, fun id => rfl⟩

/-- Capital letters in the context of an error keep it from the session that they spell. -/
theorem belongs_to_one_session_in_lower_case :
    let id : SessionId := ⟨0x550e8400e29b41d4a716446655440000⟩
    let small := "550e8400-e29b-41d4-a716-446655440000"
    let capital := "550E8400-E29B-41D4-A716-446655440000"
    let started : Event := .sessionStarted id "termination"
    (id.HasText small ∧ (error "no generator" (some small)).belongsTo id = true) ∧
    (∀ other, (error "no generator" (some small)).belongsTo other = true → id = other) ∧
    (error "no generator" none).belongsTo id = false ∧
    (SessionId.ofText? capital = some id ∧ capital ≠ id.text ∧
      (error "no generator" (some capital)).belongsTo id = false) ∧
    started.kind ≠ .error ∧ ∃ own, started.session? = some own ∧
      ∀ other, started.belongsTo other = true ↔ other = own := by
  intro id small capital started
  obtain ⟨honce, htext, herror, hother, hspelling, hnamed, -⟩ := belongs_to_one_session
  have hsmall : id.HasText small := (htext id small).mpr (by decide)
  have hbelongs := (herror "no generator" (some small) id).mpr ⟨small, rfl, hsmall⟩
  have hread : SessionId.ofText? capital = some id := by decide
  have hne : capital ≠ id.text := by decide
  have hstarted : started.kind ≠ .error := nofun
  exact ⟨⟨hsmall, hbelongs⟩, fun other => honce _ id other hbelongs,
    hother "no generator" none nofun id, ⟨hread, hne, hspelling _ capital id hread hne id⟩,
    hstarted, hnamed started hstarted⟩

end Event

end PhasedInduction
