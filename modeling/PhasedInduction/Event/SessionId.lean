import PhasedInduction.Json.Basic
import PhasedInduction.Text.Numeral

/-!
# Session identifiers

An identifier of 128 bits.  Its text has 32 lower-case hexadecimal digits in five groups
with hyphens between them.  Four forms of a text are read: with and without the hyphens,
with hyphens between braces, and with hyphens behind a resource name; the digits and the
resource name may have either case.

Main results:

- Theorem {lit}`SessionId.text_injective`: different identifiers have different texts.
- Theorem {lit}`SessionId.ofText?_text`: an identifier is read back from its text.
-/

namespace PhasedInduction

/-- An identifier of 128 bits. -/
structure SessionId where
  bits : BitVec 128
deriving DecidableEq, Repr

namespace SessionId

/-- The 32 hexadecimal digits of an identifier. -/
def digits (id : SessionId) : List Char :=
  Text.hexNumeral 32 id.bits.toNat

/-- Digits in groups of eight, four, four, four and twelve. -/
def hyphenated (ds : List Char) : List Char :=
  ds.take 8 ++ '-' :: (ds.drop 8).take 4 ++ '-' :: (ds.drop 12).take 4
    ++ '-' :: (ds.drop 16).take 4 ++ '-' :: ds.drop 20

/-- The text of an identifier. -/
def text (id : SessionId) : String :=
  String.ofList (hyphenated id.digits)

/-- The identifier of 32 hexadecimal digits. -/
def ofDigits? (ds : List Char) : Option SessionId :=
  if ds.length = 32 then (Text.hexNumber? ds).map fun n => ⟨BitVec.ofNat 128 n⟩ else none

/-- The digits of a text in groups. -/
def ungrouped? (s : List Char) : Option (List Char) :=
  match s.take 8, s.drop 8 with
  | a, '-' :: s =>
    match s.take 4, s.drop 4 with
    | b, '-' :: s =>
      match s.take 4, s.drop 4 with
      | c, '-' :: s =>
        match s.take 4, s.drop 4 with
        | d, '-' :: e => some (a ++ b ++ c ++ d ++ e)
        | _, _ => none
      | _, _ => none
    | _, _ => none
  | _, _ => none

/-- The resource name that may stand before an identifier, in lower case. -/
def resourceName : List Char :=
  ['u', 'r', 'n', ':', 'u', 'u', 'i', 'd', ':']

/-- The identifier of a text in one of the four forms. -/
def ofText? (s : String) : Option SessionId :=
  let cs := s.toList
  if cs.length = 32 then ofDigits? cs
  else if cs.length = 36 then (ungrouped? cs).bind ofDigits?
  else if cs.length = 38 ∧ cs.head? = some '\x7b' ∧ cs.getLast? = some '\x7d' then
    (ungrouped? (cs.drop 1).dropLast).bind ofDigits?
  else if cs.length = 45 ∧ (cs.take 9).map Char.toLower = resourceName then
    (ungrouped? (cs.drop 9)).bind ofDigits?
  else none

/-- An identifier as its text. -/
def toJson (id : SessionId) : Json := .string id.text

/-- The identifier of a text. -/
def ofJson? (j : Json) : Option SessionId := j.string?.bind ofText?

/-! ## Reading back -/

@[simp]
theorem length_digits (id : SessionId) : id.digits.length = 32 := by
  simp [digits]

theorem ofDigits?_digits (id : SessionId) : ofDigits? id.digits = some id := by
  have h : id.bits.toNat % Nat.pow 16 32 = id.bits.toNat :=
    Nat.mod_eq_of_lt (by have := id.bits.isLt; simpa using this)
  rw [ofDigits?, if_pos id.length_digits, digits, Text.hexNumber?_hexNumeral, h]
  simp

theorem length_hyphenated {ds : List Char} (h : ds.length = 32) :
    (hyphenated ds).length = 36 := by
  simp [hyphenated, h]

private theorem take_append_group {a b : List Char} {n : Nat} (h : a.length = n) :
    (a ++ b).take n = a ∧ (a ++ b).drop n = b := by
  subst h
  simp

/-- The groups of digits one behind the other are the digits. -/
theorem append_groups (ds : List Char) :
    ds.take 8 ++ ((ds.drop 8).take 4 ++ ((ds.drop 12).take 4 ++
      ((ds.drop 16).take 4 ++ ds.drop 20))) = ds := by
  have h1 : (ds.drop 16).take 4 ++ ds.drop 20 = ds.drop 16 := by
    simpa [List.drop_drop] using List.take_append_drop 4 (ds.drop 16)
  have h2 : (ds.drop 12).take 4 ++ ds.drop 16 = ds.drop 12 := by
    simpa [List.drop_drop] using List.take_append_drop 4 (ds.drop 12)
  have h3 : (ds.drop 8).take 4 ++ ds.drop 12 = ds.drop 8 := by
    simpa [List.drop_drop] using List.take_append_drop 4 (ds.drop 8)
  rw [h1, h2, h3, List.take_append_drop]

/-- The groups of a text give the digits back. -/
theorem ungrouped?_hyphenated {ds : List Char} (h : ds.length = 32) :
    ungrouped? (hyphenated ds) = some ds := by
  have ha : (ds.take 8).length = 8 := by simp [h]
  have hb : ((ds.drop 8).take 4).length = 4 := by simp [h]
  have hc : ((ds.drop 12).take 4).length = 4 := by simp [h]
  have hd : ((ds.drop 16).take 4).length = 4 := by simp [h]
  unfold ungrouped? hyphenated
  simp only [List.append_assoc, List.cons_append, (take_append_group ha).1,
    (take_append_group ha).2, (take_append_group hb).1, (take_append_group hb).2,
    (take_append_group hc).1, (take_append_group hc).2, (take_append_group hd).1,
    (take_append_group hd).2, append_groups]

/-- An identifier is read back from its text. -/
@[simp]
theorem ofText?_text (id : SessionId) : ofText? id.text = some id := by
  have hl := length_hyphenated id.length_digits
  simp [ofText?, text, hl, ungrouped?_hyphenated id.length_digits, ofDigits?_digits]

/-- Different identifiers have different texts. -/
theorem text_injective {a b : SessionId} (h : a.text = b.text) : a = b := by
  have := ofText?_text a
  rw [h, ofText?_text] at this
  exact (Option.some.inj this).symm

@[simp]
theorem ofJson?_toJson (id : SessionId) : ofJson? id.toJson = some id := by
  simp [ofJson?, toJson]

end SessionId

end PhasedInduction
