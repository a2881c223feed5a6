/-!
# Splitting, joining and searching texts

Texts are lists of characters here.  A separator is one character; the pieces of
a text are what stands between its separators, so that there is always one piece
more than there are separators.

Main results:

- Theorems {lit}`join_pieces` and {lit}`pieces_join`: joining the pieces of a text gives the text
  back, and texts without the separator are the pieces of what they are joined to.
- Theorem {lit}`cut_eq_some_iff`: a text is cut at its first separator.
- Theorem {lit}`occursIn_iff`: the search finds exactly the contiguous parts.
-/

namespace PhasedInduction.Text

/-! ## Pieces -/

/-- The parts of a text between the occurrences of a separator. -/
def pieces (sep : Char) : List Char → List (List Char)
  | [] => [[]]
  | c :: r =>
    if c = sep then [] :: pieces sep r
    else
      match pieces sep r with
      | [] => [[c]]
      | p :: ps => (c :: p) :: ps

/-- Texts written one after the other with a separator between them. -/
def join (sep : Char) : List (List Char) → List Char
  | [] => []
  | [p] => p
  | p :: q :: ps => p ++ sep :: join sep (q :: ps)

theorem pieces_ne_nil (sep : Char) (s : List Char) : pieces sep s ≠ [] := by
  cases s with
  | nil => simp [pieces]
  | cons c r =>
    simp only [pieces]
    split
    · simp
    · split <;> simp

/-- Joining the pieces of a text gives the text back. -/
theorem join_pieces (sep : Char) (s : List Char) : join sep (pieces sep s) = s := by
  induction s with
  | nil => rfl
  | cons c r ih =>
    obtain ⟨p, ps, h⟩ := List.exists_cons_of_ne_nil (pieces_ne_nil sep r)
    rw [h] at ih
    by_cases hc : c = sep
    · simp [pieces, hc, h, join, ih]
    · cases ps with
      | nil => simp_all [pieces, join]
      | cons q qs => simp_all [pieces, join]

/-- No piece holds the separator. -/
theorem not_mem_of_mem_pieces {sep : Char} {s p : List Char} (h : p ∈ pieces sep s) :
    sep ∉ p := by
  induction s generalizing p with
  | nil => simp_all [pieces]
  | cons c r ih =>
    obtain ⟨q, qs, hq⟩ := List.exists_cons_of_ne_nil (pieces_ne_nil sep r)
    by_cases hc : c = sep
    · simp only [pieces, hc, if_true, List.mem_cons] at h
      rcases h with rfl | h
      · simp
      · exact ih h
    · simp only [pieces, hc, if_false, hq, List.mem_cons] at h
      rcases h with rfl | h
      · have := ih (p := q) (by simp [hq])
        simp [this, Ne.symm hc]
      · exact ih (by simp [hq, h])

/-- Texts are joined part by part. -/
theorem join_append {sep : Char} {ps qs : List (List Char)} (hps : ps ≠ []) (hqs : qs ≠ []) :
    join sep (ps ++ qs) = join sep ps ++ sep :: join sep qs := by
  induction ps with
  | nil => exact absurd rfl hps
  | cons p ps ih =>
    cases ps with
    | nil =>
      obtain ⟨q, qs, rfl⟩ := List.exists_cons_of_ne_nil hqs
      rfl
    | cons r ps =>
      rw [List.cons_append, List.cons_append, join, ← List.cons_append,
        ih (List.cons_ne_nil r ps), join, List.append_assoc, List.cons_append]

/-- A text without the separator is one piece. -/
theorem pieces_of_not_mem {sep : Char} {s : List Char} (h : sep ∉ s) : pieces sep s = [s] := by
  induction s with
  | nil => rfl
  | cons c r ih =>
    obtain ⟨hc, hr⟩ := List.ne_and_not_mem_of_not_mem_cons h
    rw [pieces, if_neg (Ne.symm hc), ih hr]

/-- The text before the first separator is the first piece. -/
theorem pieces_append_cons {sep : Char} {p : List Char} (h : sep ∉ p) (s : List Char) :
    pieces sep (p ++ sep :: s) = p :: pieces sep s := by
  induction p with
  | nil => simp [pieces]
  | cons c r ih =>
    obtain ⟨hc, hr⟩ := List.ne_and_not_mem_of_not_mem_cons h
    rw [List.cons_append, pieces, if_neg (Ne.symm hc), ih hr]

/-- Texts without the separator are the pieces of what they are joined to. -/
theorem pieces_join {sep : Char} {ps : List (List Char)} (hne : ps ≠ [])
    (h : ∀ p ∈ ps, sep ∉ p) : pieces sep (join sep ps) = ps := by
  induction ps with
  | nil => exact absurd rfl hne
  | cons p ps ih =>
    cases ps with
    | nil => exact pieces_of_not_mem (h p List.mem_cons_self)
    | cons q ps =>
      rw [join, pieces_append_cons (h p List.mem_cons_self),
        ih (List.cons_ne_nil q ps) fun r hr => h r (List.mem_cons_of_mem p hr)]

/-- Joining strings with a separating string. -/
def joined (sep : String) : List String → String
  | [] => ""
  | [p] => p
  | p :: q :: ps => p ++ sep ++ joined sep (q :: ps)

/-! ## Cutting at one separator -/

/-- The texts before and after the first separator, if there is one. -/
def cut (sep : Char) : List Char → Option (List Char × List Char)
  | [] => none
  | c :: r =>
    if c = sep then some ([], r)
    else (cut sep r).map fun halves => (c :: halves.1, halves.2)

/-- A text is cut where its first separator stands. -/
theorem cut_eq_some_iff {sep : Char} {s a b : List Char} :
    cut sep s = some (a, b) ↔ s = a ++ sep :: b ∧ sep ∉ a := by
  induction s generalizing a with
  | nil => simp [cut]
  | cons c r ih =>
    by_cases hc : c = sep
    · subst hc
      cases a with
      | nil => simp [cut, eq_comm]
      | cons x a => simp [cut]; intro h; simp_all
    · cases a with
      | nil => simp [cut, hc]
      | cons x a =>
        have hx : (∃ p q, cut sep r = some (p, q) ∧ (c :: p, q) = (x :: a, b)) ↔
            c = x ∧ cut sep r = some (a, b) := by
          constructor
          · rintro ⟨p, q, h, e⟩; simp_all
          · rintro ⟨rfl, h⟩; exact ⟨a, b, h, rfl⟩
        simp only [cut, hc, if_false, Option.map_eq_some_iff, Prod.exists, hx, ih]
        constructor
        · rintro ⟨rfl, rfl, h⟩; simp [h, Ne.symm hc]
        · rintro ⟨h, hs⟩; simp_all

/-- A text without the separator is not cut. -/
theorem cut_eq_none_iff {sep : Char} {s : List Char} :
    cut sep s = none ↔ sep ∉ s := by
  induction s with
  | nil => simp [cut]
  | cons c r ih =>
    by_cases hc : c = sep
    · simp [cut, hc]
    · simp [cut, hc, ih, Ne.symm hc]

/-- The texts before and after the last separator, if there is one. -/
def cutLast (sep : Char) (s : List Char) : Option (List Char × List Char) :=
  (cut sep s.reverse).map fun halves => (halves.2.reverse, halves.1.reverse)

/-- A text is cut backwards where its last separator stands. -/
theorem cutLast_eq_some_iff {sep : Char} {s a b : List Char} :
    cutLast sep s = some (a, b) ↔ s = a ++ sep :: b ∧ sep ∉ b := by
  simp only [cutLast, Option.map_eq_some_iff, Prod.exists, Prod.mk.injEq]
  constructor
  · rintro ⟨p, q, h, rfl, rfl⟩
    obtain ⟨h, hp⟩ := cut_eq_some_iff.1 h
    refine ⟨?_, by simpa using hp⟩
    simpa using congrArg List.reverse h
  · rintro ⟨rfl, hb⟩
    exact ⟨b.reverse, a.reverse, cut_eq_some_iff.2 (by simp [hb]), by simp, by simp⟩

/-- A separator that is followed by none is the last one. -/
theorem cutLast_append {sep : Char} {b : List Char} (hb : sep ∉ b) (a : List Char) :
    cutLast sep (a ++ sep :: b) = some (a, b) :=
  cutLast_eq_some_iff.2 ⟨rfl, hb⟩

/-- A text without the separator is not cut backwards either. -/
theorem cutLast_eq_none_iff {sep : Char} {s : List Char} : cutLast sep s = none ↔ sep ∉ s := by
  rw [cutLast, Option.map_eq_none_iff, cut_eq_none_iff, List.mem_reverse]

/-! ## Searching -/

/-- Whether a text occurs as a contiguous part of another. -/
def occursIn (part : List Char) : List Char → Bool
  | [] => part.isEmpty
  | c :: r => part.isPrefixOf (c :: r) || occursIn part r

/-- The search finds exactly the contiguous parts. -/
theorem occursIn_iff (part s : List Char) : occursIn part s = true ↔ part <:+: s := by
  induction s with
  | nil => simp [occursIn]
  | cons c r ih =>
    simp [occursIn, ih, List.infix_cons_iff]

end PhasedInduction.Text
