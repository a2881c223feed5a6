/-!
# Rows with keys

A list of rows, each with a key and a value.  The first row with a key has the value of that key.

Main results:

- Theorem {lit}`Rows.lookup_cons`: what a row in front changes.
-/

namespace PhasedInduction.Rows

variable {α β : Type} [BEq α] [LawfulBEq α] [DecidableEq α]

/-- A row in front has the value of its key, and every other key the value behind it. -/
theorem lookup_cons (key wanted : α) (value : β) (rows : List (α × β)) :
    ((key, value) :: rows).lookup wanted =
      if wanted = key then some value else rows.lookup wanted := by
  rw [List.lookup_cons]
  by_cases h : wanted = key
  · rw [beq_iff_eq.mpr h, if_pos h]
  · rw [beq_eq_false_iff_ne.mpr h, if_neg h]

end PhasedInduction.Rows
