/-!
# Blank characters and trimming

A character is blank when it has the Unicode property White_Space.  Trimming a
text drops the blank characters at both of its ends and nothing else.

Main results:

- Theorem {lit}`isBlank_of_isWhitespace`: every character that the core library
  calls whitespace is blank.
- Theorem {lit}`trim_eq_nil_iff`: a text trims to nothing exactly when all of its
  characters are blank.
-/

namespace PhasedInduction.Text

/-- The code points with the property White_Space, in increasing order. -/
def blankPoints : List Nat :=
  [0x09, 0x0A, 0x0B, 0x0C, 0x0D, 0x20, 0x85, 0xA0, 0x1680, 0x2000, 0x2001, 0x2002,
    0x2003, 0x2004, 0x2005, 0x2006, 0x2007, 0x2008, 0x2009, 0x200A, 0x2028, 0x2029,
    0x202F, 0x205F, 0x3000]

/-- Whether a character has the property White_Space. -/
def isBlank (c : Char) : Bool :=
  blankPoints.contains c.toNat

/-- Every character of the core library's whitespace class is blank. -/
theorem isBlank_of_isWhitespace {c : Char} (h : c.isWhitespace = true) :
    isBlank c = true := by
  simp only [Char.isWhitespace, Bool.or_eq_true, decide_eq_true_eq] at h
  rcases h with ((rfl | rfl) | rfl) | rfl <;> decide

/-- The text without the blank characters at its start. -/
def trimStart (s : List Char) : List Char :=
  s.dropWhile isBlank

/-- The text without the blank characters at its end. -/
def trimEnd (s : List Char) : List Char :=
  (s.reverse.dropWhile isBlank).reverse

/-- The text without the blank characters at either end. -/
def trim (s : List Char) : List Char :=
  trimEnd (trimStart s)

/-- Trimming for strings. -/
def trimmed (s : String) : String :=
  String.ofList (trim s.toList)

@[simp]
theorem toList_trimmed (s : String) : (trimmed s).toList = trim s.toList := by
  simp [trimmed]

private theorem dropWhile_isBlank_eq_nil_iff (s : List Char) :
    s.dropWhile isBlank = [] ↔ ∀ c ∈ s, isBlank c = true := by
  induction s with
  | nil => simp
  | cons c r ih => by_cases h : isBlank c = true <;> simp [h, ih]

theorem trimEnd_eq_nil_iff (s : List Char) :
    trimEnd s = [] ↔ ∀ c ∈ s, isBlank c = true := by
  rw [trimEnd, List.reverse_eq_nil_iff, dropWhile_isBlank_eq_nil_iff]
  simp only [List.mem_reverse]

theorem trimStart_eq_nil_iff (s : List Char) :
    trimStart s = [] ↔ ∀ c ∈ s, isBlank c = true :=
  dropWhile_isBlank_eq_nil_iff s

/-- The first character left by {lit}`trimStart` is not blank. -/
theorem isBlank_head_trimStart {s : List Char} {c : Char} {r : List Char}
    (h : trimStart s = c :: r) : isBlank c = false := by
  induction s with
  | nil => simp [trimStart] at h
  | cons a s ih =>
    by_cases ha : isBlank a = true
    · exact ih (by simpa [trimStart, ha] using h)
    · have : a = c := by
        simp [trimStart, ha] at h
        exact h.1
      simpa [this] using ha

/-- A text trims to nothing exactly when it is blank throughout. -/
theorem trim_eq_nil_iff (s : List Char) :
    trim s = [] ↔ ∀ c ∈ s, isBlank c = true := by
  rw [trim, trimEnd_eq_nil_iff]
  refine Iff.trans ?_ (trimStart_eq_nil_iff s)
  cases h : trimStart s with
  | nil => simp
  | cons c r => simp [isBlank_head_trimStart h]

end PhasedInduction.Text
