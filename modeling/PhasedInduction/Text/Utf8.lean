/-!
# Bytes of texts

The bytes that encode a text, and the text of any bytes.  Bytes that encode nothing are
shown by the replacement character, one for every longest piece that could have begun a
character.

Main results:

- Theorem {lit}`ofBytes?_eq_some_iff`: bytes are read as a text exactly if they encode it.
- Theorem {lit}`length_continued_le`: reading a character never gives bytes back.
- Theorem {lit}`charsOfUtf8_of_ascii`: a byte below 128 is a character of its own.
-/

namespace PhasedInduction.Text

/-- The bytes of a text. -/
def utf8 (s : String) : List UInt8 := s.toList.flatMap String.utf8EncodeChar

/-- The text that bytes encode, if they encode one. -/
def ofBytes? (bytes : List UInt8) : Option String := String.fromUTF8? bytes.toByteArray

/-- Bytes are read as a text exactly if they encode it. -/
theorem ofBytes?_eq_some_iff {bytes : List UInt8} {s : String} :
    ofBytes? bytes = some s ↔ bytes = utf8 s := by
  have hutf8 : (utf8 s).toByteArray = s.toByteArray := String.utf8Encode_toList
  rw [← List.toByteArray_inj, hutf8, ofBytes?, String.fromUTF8?]
  split
  · next hvalid =>
    rw [Option.some.injEq, ← String.toByteArray_inj]
    rfl
  · next hinvalid =>
    refine ⟨nofun, fun h => absurd ?_ hinvalid⟩
    exact h ▸ s.isValidUTF8

/-- The bytes of a text encode it. -/
@[simp]
theorem ofBytes?_utf8 (s : String) : ofBytes? (utf8 s) = some s :=
  ofBytes?_eq_some_iff.mpr rfl

/-- What the first byte of a longer character demands of the bytes after it. -/
structure LeadByte where
  /-- The bits of the character that the first byte holds. -/
  bits : Nat
  /-- How many bytes have to follow. -/
  more : Nat
  /-- The least value of the next byte. -/
  low : UInt8 := 0x80
  /-- The largest value of the next byte. -/
  high : UInt8 := 0xBF
deriving DecidableEq, Repr

/-- The demands of a first byte.  The ranges leave out forms that are longer than needed,
surrogates, and what is beyond the last character. -/
def leadByte? (b : UInt8) : Option LeadByte :=
  if b < 0xC2 then none
  else if b < 0xE0 then some { bits := b.toNat - 0xC0, more := 1 }
  else if b = 0xE0 then some { bits := 0, more := 2, low := 0xA0 }
  else if b = 0xED then some { bits := 0xD, more := 2, high := 0x9F }
  else if b < 0xF0 then some { bits := b.toNat - 0xE0, more := 2 }
  else if b = 0xF0 then some { bits := 0, more := 3, low := 0x90 }
  else if b < 0xF4 then some { bits := b.toNat - 0xF0, more := 3 }
  else if b = 0xF4 then some { bits := 4, more := 3, high := 0x8F }
  else none

/-- What stands for bytes that encode nothing. -/
def replacement : Char := '\ufffd'

/-- The character of the bits so far and of some more bytes, with the bytes left. -/
def continued (bits : Nat) (low high : UInt8) : (more : Nat) → List UInt8 → Char × List UInt8
  | 0, rest => (Char.ofNat bits, rest)
  | _ + 1, [] => (replacement, [])
  | more + 1, b :: rest =>
    if low ≤ b ∧ b ≤ high then
      continued (bits * 64 + (b.toNat - 0x80)) 0x80 0xBF more rest
    else (replacement, b :: rest)

/-- Reading a character never gives bytes back. -/
theorem length_continued_le (bits : Nat) (low high : UInt8) (more : Nat) (bytes : List UInt8) :
    (continued bits low high more bytes).2.length ≤ bytes.length := by
  induction more generalizing bits low high bytes with
  | zero => simp [continued]
  | succ more ih =>
    cases bytes with
    | nil => simp [continued]
    | cons b rest =>
      simp only [continued]
      split
      · exact Nat.le_succ_of_le (ih _ _ _ rest)
      · simp

/-- The character that a byte begins, with the bytes left. -/
def firstChar (b : UInt8) (rest : List UInt8) : Char × List UInt8 :=
  if b < 0x80 then (Char.ofNat b.toNat, rest)
  else
    match leadByte? b with
    | some lead => continued lead.bits lead.low lead.high lead.more rest
    | none => (replacement, rest)

theorem length_firstChar_le (b : UInt8) (rest : List UInt8) :
    (firstChar b rest).2.length ≤ rest.length := by
  unfold firstChar
  split
  · exact Nat.le_refl _
  · split
    · exact length_continued_le _ _ _ _ rest
    · exact Nat.le_refl _

/-- The characters of any bytes. -/
def charsOfUtf8 : List UInt8 → List Char
  | [] => []
  | b :: rest =>
    have : (firstChar b rest).2.length < (b :: rest).length :=
      Nat.lt_succ_of_le (length_firstChar_le b rest)
    (firstChar b rest).1 :: charsOfUtf8 (firstChar b rest).2
termination_by bytes => bytes.length
decreasing_by exact this

/-- A byte below 128 is a character of its own. -/
theorem charsOfUtf8_of_ascii {b : UInt8} (h : b < 0x80) (rest : List UInt8) :
    charsOfUtf8 (b :: rest) = Char.ofNat b.toNat :: charsOfUtf8 rest := by
  rw [charsOfUtf8]
  simp [firstChar, h]

/-- The text of any bytes. -/
def ofUtf8 (bytes : List UInt8) : String := String.ofList (charsOfUtf8 bytes)

end PhasedInduction.Text
