import PhasedInduction.Text.Split
import PhasedInduction.Text.Utf8

/-!
# Texts of bytes

Processes take and print bytes that need not encode any text.  A byte text is a string in
which every character stands for the byte of its number, so that bytes can be written,
compared and taken apart like other strings.

Main results:

- Theorem {lit}`ByteText.byteOf_charOf`: the character of a byte stands for that byte.
- Theorem {lit}`ByteText.bytes_ofText`: a text becomes the bytes that encode it.
-/

namespace PhasedInduction.Host

/-- A string of bytes: every character stands for the byte of its number. -/
abbrev ByteText := String

namespace ByteText

/-- The character that stands for a byte. -/
def charOf (b : UInt8) : Char := Char.ofNat b.toNat

/-- The byte that a character stands for. -/
def byteOf (c : Char) : UInt8 := UInt8.ofNat c.toNat

/-- The character of a byte stands for that byte. -/
@[simp]
theorem byteOf_charOf (b : UInt8) : byteOf (charOf b) = b := by
  have hb : b.toNat < 256 := b.toNat_lt
  have hv : b.toNat.isValidChar := Or.inl (by omega)
  have : (charOf b).toNat = b.toNat := by
    rw [charOf, Char.ofNat, dif_pos hv]
    rfl
  simp [byteOf, this]

/-- The bytes of a byte text. -/
def bytes (t : ByteText) : List UInt8 := t.toList.map byteOf

/-- The byte text of bytes. -/
def ofBytes (l : List UInt8) : ByteText := String.ofList (l.map charOf)

@[simp]
theorem bytes_ofBytes (l : List UInt8) : bytes (ofBytes l) = l := by
  simp [bytes, ofBytes, List.map_map, Function.comp_def]

/-- The byte text that encodes a text. -/
def ofText (s : String) : ByteText := ofBytes (Text.utf8 s)

/-- A text becomes the bytes that encode it. -/
theorem bytes_ofText (s : String) : bytes (ofText s) = Text.utf8 s :=
  bytes_ofBytes _

/-- The text that a byte text shows. -/
def toText (t : ByteText) : String := Text.ofUtf8 (bytes t)

/-- The byte texts joined with a line end after each. -/
def unlines (lines : List ByteText) : ByteText :=
  String.join (lines.map (· ++ "\n"))

/-- The lines of a byte text; a line end at its end begins no further line. -/
def lines (t : ByteText) : List ByteText :=
  match ((Text.pieces '\n' t.toList).map String.ofList).reverse with
  | "" :: l => l.reverse
  | l => l.reverse

end ByteText

end PhasedInduction.Host
