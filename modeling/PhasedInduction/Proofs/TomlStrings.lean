import PhasedInduction.Proofs.TomlGrammar
import PhasedInduction.Toml.Printer

/-!
# Strings that are written and read

The readers of strings follow the grammar: every spelling of a text, in whichever of the four forms,
is read as the text.  On several lines, quotes that belong to the text are told from those that
close the string by their number in a row.  What is written for a text is one of its spellings.

Main results:

- Theorems {lit}`closing?_of_quotes` and {lit}`closing?_of_other`: where a string of several lines
  is closed.
- Theorem {lit}`string?_of_spells`: every spelling of a text is read as the text.
- Theorem {lit}`spellsString_stringText`: every text is written as one of its spellings.
-/

namespace PhasedInduction.Toml

/-- A budget that is not used up is one step and what is left. -/
theorem exists_budget_of_lt {used budget : Nat} (h : used < budget) :
    ∃ left, budget = left + 1 ∧ used ≤ left :=
  ⟨budget - 1, by omega, by omega⟩

/-! ## Escapes -/

/-- The code point of a character is one of a scalar value: that character. -/
theorem scalar?_toNat (c : Char) : scalar? c.toNat = some c := by
  have hvalid : c.toNat.isValidChar := c.valid
  rw [scalar?, if_pos hvalid, Char.ofNat_toNat]

/-- As many hexadecimal digits as the width says are read as the character of their number. -/
theorem hexEscape?_append {c : Char} {width : Nat} {digits : List Char}
    (hlength : digits.length = width) (hnumber : Text.hexNumber? digits = some c.toNat)
    (rest : List Char) : hexEscape? width (digits ++ rest) = some (c, rest) := by
  have hlong : ¬(digits ++ rest).length < width := by
    rw [List.length_append]
    omega
  rw [hexEscape?, if_neg hlong, ← hlength, List.take_left, List.drop_left, hnumber,
    Option.bind_some, scalar?_toNat]

/-- Every spelling of an escape is read as its character. -/
theorem escape?_of_spells {c : Char} {code : List Char} (h : SpellsEscape c code)
    (rest : List Char) : escape? (code ++ rest) = some (c, rest) := by
  cases h with
  | letter h =>
    simp only [escapeLetters, List.mem_cons, Prod.mk.injEq, List.not_mem_nil, or_false] at h
    obtain ⟨rfl, rfl⟩ | ⟨rfl, rfl⟩ | ⟨rfl, rfl⟩ | ⟨rfl, rfl⟩ | ⟨rfl, rfl⟩ | ⟨rfl, rfl⟩ |
      ⟨rfl, rfl⟩ := h
    all_goals rfl
  | short hlength hnumber => exact hexEscape?_append hlength hnumber rest
  | long hlength hnumber => exact hexEscape?_append hlength hnumber rest

/-- A backslash that begins an escape does not fold lines. -/
theorem foldLines?_of_escape? {s : List Char} {read : Char × List Char}
    (h : escape? s = some read) : foldLines? s = none := by
  unfold escape? at h
  split at h <;> first | rfl | cases h

/-! ## Strings on one line -/

/-- A text between the quotes of a basic string is read from every spelling. -/
theorem basic?_of_spells {s t : List Char} (h : SpellsBasic s t) (rest : List Char)
    {budget : Nat} (hbudget : t.length < budget) :
    basic? budget (t ++ '"' :: rest) = some (s, rest) := by
  induction h generalizing budget with
  | nil =>
    obtain ⟨budget, rfl, -⟩ := exists_budget_of_lt hbudget
    rw [List.nil_append, basic?, if_pos rfl]
  | plain hplain hquote hbackslash _ ih =>
    obtain ⟨budget, rfl, hleft⟩ := exists_budget_of_lt hbudget
    rw [List.cons_append, basic?, if_neg hquote, if_neg hbackslash, if_pos hplain, ih hleft]
    rfl
  | @escape c code s t hcode _ ih =>
    obtain ⟨budget, rfl, hleft⟩ := exists_budget_of_lt hbudget
    have hshorter : t.length < budget := by
      rw [List.length_cons, List.length_append] at hleft
      omega
    rw [List.cons_append, List.append_assoc, basic?, if_neg (by decide), if_pos rfl,
      escape?_of_spells hcode]
    simp only [ih hshorter]
    rfl

/-- A text that can stand in a literal string on one line is read from it. -/
theorem literal?_append {s : List Char} (h : IsLiteral s) (rest : List Char) :
    literal? (s ++ '\'' :: rest) = some (s, rest) := by
  induction s with
  | nil => rw [List.nil_append, literal?, if_pos rfl]
  | cons c s ih =>
    obtain ⟨hquote, hplain⟩ := h c List.mem_cons_self
    have hrest := ih fun d hd => h d (List.mem_cons_of_mem _ hd)
    rw [List.cons_append, literal?, if_neg hquote, if_pos hplain, hrest]
    rfl

/-! ## Where a string of several lines is closed -/

section Closing

variable {quote : Char} {w rest : List Char} (hrun : ¬[quote, quote, quote] <+: w)
include hrun

/-- Three quotes close a string of several lines where nothing but quotes stands before them; up
to two of those belong to the text. -/
theorem closing?_of_quotes (hrest : rest.head? ≠ some quote) (hquotes : ∀ c ∈ w, c = quote) :
    closing? quote (w ++ [quote, quote, quote] ++ rest) = some (w, rest) := by
  match w with
  | [] =>
    cases rest with
    | nil => simp [closing?]
    | cons d rest =>
      have hd : d ≠ quote := by simpa using hrest
      cases rest <;> simp [closing?, hd]
  | [a] =>
    obtain rfl : a = quote := hquotes a List.mem_cons_self
    cases rest with
    | nil => simp [closing?]
    | cons d rest =>
      have hd : d ≠ a := by simpa using hrest
      simp [closing?, hd]
  | [a, b] =>
    obtain ⟨rfl, rfl⟩ : a = quote ∧ b = quote := by simpa using hquotes
    simp [closing?]
  | a :: b :: c :: w =>
    obtain ⟨rfl, rfl, rfl, -⟩ : a = quote ∧ b = quote ∧ c = quote ∧ ∀ d ∈ w, d = quote := by
      simpa using hquotes
    exact absurd ⟨w, rfl⟩ hrun

/-- A string of several lines is not closed where something else than a quote stands before the
three quotes. -/
theorem closing?_of_other (hother : ¬∀ c ∈ w, c = quote) :
    closing? quote (w ++ [quote, quote, quote] ++ rest) = none := by
  match w with
  | [] => simp at hother
  | [a] =>
    have ha : a ≠ quote := by simpa using hother
    simp [closing?, ha]
  | [a, b] =>
    have hab : ¬(a = quote ∧ b = quote) := by simpa using hother
    simp only [closing?, List.cons_append, List.nil_append, and_true, if_neg hab]
  | a :: b :: c :: w =>
    have hfirst : ¬(a = quote ∧ b = quote ∧ c = quote) := by
      rintro ⟨rfl, rfl, rfl⟩
      exact hrun ⟨w, rfl⟩
    simp [closing?, hfirst]

end Closing

/-- Only line ends begin a new line. -/
theorem newline?_cons_of_ne {c : Char} (hn : c ≠ '\n') (hr : c ≠ '\r') (rest : List Char) :
    newline? (c :: rest) = none := by
  unfold newline?
  split
  · next heq => exact absurd (List.cons.inj heq).1 hn
  · next heq => exact absurd (List.cons.inj heq).1 hr
  · rfl

/-- A string of several lines is not closed where something else than a quote stands. -/
theorem closing?_cons_of_ne {quote c : Char} (h : c ≠ quote) (s : List Char) :
    closing? quote (c :: s) = none := by
  match s with
  | [] => rfl
  | [_] => rfl
  | _ :: _ :: _ => simp [closing?, h]

/-! ## Strings of several lines -/

section Lines

variable {quote : Char} {quotes : Nat} {s t : List Char}

/-- A spelling begins with fewer than three quotes, counted with those before it. -/
theorem not_prefix_of_spellsLines (hquote : quote = '"' ∨ quote = '\'')
    (h : SpellsLines quote quotes s t) (hquotes : quotes ≤ 2) :
    ¬List.replicate (3 - quotes) quote <+: t := by
  have hfirst : ∀ {quotes} (c : Char) (t : List Char), c ≠ quote → quotes ≤ 2 →
      ¬List.replicate (3 - quotes) quote <+: c :: t := by
    intro quotes c t hc hquotes
    obtain ⟨fewer, hfewer⟩ : ∃ fewer, 3 - quotes = fewer + 1 := ⟨2 - quotes, by omega⟩
    rw [hfewer, List.replicate_succ]
    exact fun h => hc (List.cons_prefix_cons.mp h).1.symm
  have hfeed : '\n' ≠ quote := by rcases hquote with rfl | rfl <;> decide
  have hreturn : '\r' ≠ quote := by rcases hquote with rfl | rfl <;> decide
  induction h with
  | @nil quotes =>
    obtain ⟨fewer, hfewer⟩ : ∃ fewer, 3 - quotes = fewer + 1 := ⟨2 - quotes, by omega⟩
    rw [hfewer]
    exact fun h => List.cons_ne_nil _ _ (List.prefix_nil.mp h)
  | @quote quotes s t hfew _ ih =>
    obtain ⟨fewer, hfewer⟩ : ∃ fewer, 3 - quotes = fewer + 1 := ⟨2 - quotes, by omega⟩
    rw [hfewer, List.replicate_succ]
    intro h
    -- The quote that is read is one of the three, so one fewer may follow it.
    have hrest := ih (by omega)
    rw [show 3 - (quotes + 1) = fewer by omega] at hrest
    exact hrest (List.cons_prefix_cons.mp h).2
  | plain _ hc _ _ _ => exact hfirst _ _ hc hquotes
  | newline hn _ _ =>
    cases hn with
    | feed => exact hfirst _ _ hfeed hquotes
    | returnFeed => exact hfirst _ _ hreturn hquotes
  | escape hbasic _ _ _ => exact hfirst _ _ (by rw [hbasic]; decide) hquotes
  | fold hbasic _ _ _ _ _ _ => exact hfirst _ _ (by rw [hbasic]; decide) hquotes

/-- A spelling does not begin with three quotes. -/
theorem not_three_prefix_of_spellsLines (hquote : quote = '"' ∨ quote = '\'')
    (h : SpellsLines quote quotes s t) (hquotes : quotes ≤ 2) : ¬[quote, quote, quote] <+: t := by
  have hsplit : List.replicate (3 - quotes) quote ++ List.replicate quotes quote =
      [quote, quote, quote] := by
    rw [List.replicate_append_replicate, Nat.sub_add_cancel (by omega)]
    rfl
  have hfewer : List.replicate (3 - quotes) quote <+: [quote, quote, quote] :=
    hsplit ▸ List.prefix_append _ _
  intro hthree
  exact not_prefix_of_spellsLines hquote h hquotes (hfewer.trans hthree)

/-- A spelling of nothing but quotes is the text itself. -/
theorem eq_of_spellsLines_quotes (hquote : quote = '"' ∨ quote = '\'')
    (h : SpellsLines quote quotes s t) (hall : ∀ c ∈ t, c = quote) : s = t := by
  have hfeed : '\n' ≠ quote := by rcases hquote with rfl | rfl <;> decide
  have hbackslash : '\\' ≠ quote := by rcases hquote with rfl | rfl <;> decide
  induction h with
  | nil => rfl
  | quote _ _ ih => rw [ih fun d hd => hall d (List.mem_cons_of_mem _ hd)]
  | plain _ hc _ _ _ => exact absurd (hall _ List.mem_cons_self) hc
  | newline hn _ _ => exact absurd (hall '\n' (by cases hn <;> simp)) hfeed
  | escape _ _ _ _ => exact absurd (hall _ List.mem_cons_self) hbackslash
  | fold _ _ _ _ _ _ _ => exact absurd (hall _ List.mem_cons_self) hbackslash

end Lines

/-- The rest of a string behind a line end. -/
theorem newline?_append {n : List Char} (h : IsNewline n) (rest : List Char) :
    newline? (n ++ rest) = some rest := by
  cases h <;> rfl

/-- A line end is read where one stands. -/
theorem newline?_eq_none_iff (s : List Char) :
    newline? s = none ↔ ∀ n, IsNewline n → ¬n <+: s := by
  constructor
  · rintro h n hn ⟨rest, rfl⟩
    rw [newline?_append hn] at h
    cases h
  · intro h
    unfold newline?
    split
    · next rest => exact absurd ⟨rest, rfl⟩ (h _ .feed)
    · next rest => exact absurd ⟨rest, rfl⟩ (h _ .returnFeed)
    · rfl

/-- A quote behind a text makes no line end at its start. -/
theorem newline?_append_quote {quote : Char} (hquote : quote = '"' ∨ quote = '\'') {t : List Char}
    (h : newline? t = none) (rest : List Char) : newline? (t ++ quote :: rest) = none := by
  have hfeed : quote ≠ '\n' := by rcases hquote with rfl | rfl <;> decide
  have hreturn : quote ≠ '\r' := by rcases hquote with rfl | rfl <;> decide
  match t with
  | [] => exact newline?_cons_of_ne hfeed hreturn rest
  | c :: t =>
    rw [newline?_eq_none_iff] at h ⊢
    rintro n hn ⟨more, hmore⟩
    cases hn with
    | feed =>
      obtain ⟨rfl, -⟩ := List.cons.inj hmore
      exact h _ .feed ⟨t, rfl⟩
    | returnFeed =>
      obtain ⟨rfl, hbehind⟩ := List.cons.inj hmore
      cases t with
      | nil => exact hfeed (List.cons.inj hbehind).1.symm
      | cons d t =>
        obtain ⟨rfl, -⟩ := List.cons.inj hbehind
        exact h _ .returnFeed ⟨t, rfl⟩

/-! ## The readers of several lines -/

/-- The content of a string of several lines, in the form of its quotes. -/
def multiline? (quote : Char) (budget : Nat) (s : List Char) : Option (List Char × List Char) :=
  if quote = '"' then multilineBasic? budget s else multilineLiteral? budget s

section Multiline

variable {quote : Char} (hquote : quote = '"' ∨ quote = '\'')
include hquote

/-- A string of several lines ends where it is closed. -/
theorem multiline?_of_closing {s : List Char} {read : List Char × List Char}
    (h : closing? quote s = some read) (budget : Nat) :
    multiline? quote (budget + 1) s = some read := by
  rcases hquote with rfl | rfl
  · simp [multiline?, multilineBasic?, h]
  · simp [multiline?, multilineLiteral?, h]

/-- In a string of several lines, a plain character stands for itself, and so does a quote where
the string is not closed. -/
theorem multiline?_plain {c : Char} {s : List Char} (hclosing : closing? quote (c :: s) = none)
    (hbackslash : quote = '"' → c ≠ '\\') (hplain : isPlain c = true) (budget : Nat) :
    multiline? quote (budget + 1) (c :: s) = consContent c (multiline? quote budget s) := by
  have hline : newline? (c :: s) = none := by
    refine newline?_cons_of_ne ?_ ?_ s <;> rintro rfl <;> cases hplain
  rcases hquote with rfl | rfl
  · simp [multiline?, multilineBasic?, hclosing, hline, hbackslash rfl, hplain]
  · simp [multiline?, multilineLiteral?, hclosing, hline, hplain]

/-- A line end in a string of several lines stands for itself. -/
theorem multiline?_newline {n : List Char} (h : IsNewline n) (budget : Nat) (s : List Char) :
    multiline? quote (budget + 1) (n ++ s) = consContent '\n' (multiline? quote budget s) := by
  have hclosing : closing? quote (n ++ s) = none := by
    rcases hquote with rfl | rfl <;> cases h <;> exact closing?_cons_of_ne (by decide) _
  have hline := newline?_append h s
  rcases hquote with rfl | rfl
  · simp [multiline?, multilineBasic?, hclosing, hline]
  · simp [multiline?, multilineLiteral?, hclosing, hline]

end Multiline

/-- An escape in a basic string of several lines stands for its character. -/
theorem multiline?_escape {c : Char} {code : List Char} (h : SpellsEscape c code) (budget : Nat)
    (s : List Char) :
    multiline? '"' (budget + 1) ('\\' :: (code ++ s)) =
      consContent c (multiline? '"' budget s) := by
  have hclosing := @closing?_cons_of_ne '"' '\\' (by decide) (code ++ s)
  have hline := @newline?_cons_of_ne '\\' (by decide) (by decide) (code ++ s)
  have hread := escape?_of_spells h s
  simp [multiline?, multilineBasic?, hclosing, hline, foldLines?_of_escape? hread, hread]

/-- Spaces and tabs are skipped. -/
theorem skipSpaces_append {blank : List Char} (h : IsBlank blank) (rest : List Char) :
    skipSpaces (blank ++ rest) = skipSpaces rest :=
  List.dropWhile_append_of_pos h

/-- Nothing is skipped where no space stands. -/
theorem skipSpaces_cons {c : Char} (h : isSpace c = false) (rest : List Char) :
    skipSpaces (c :: rest) = c :: rest :=
  List.dropWhile_cons_of_neg (by simp [h])

/-- Spaces and line ends are skipped up to what stands behind them. -/
theorem skipLines_append {gap : List Char} (h : IsGap gap) (rest : List Char) :
    skipLines (gap ++ rest) = skipLines rest := by
  induction h with
  | nil => rfl
  | @space c s hc _ ih =>
    obtain rfl | rfl : c = ' ' ∨ c = '\t' := by simpa [isSpace] using hc
    · exact ih
    · exact ih
  | newline hn _ ih => cases hn <;> exact ih

/-- Nothing is skipped in front of a character that is no space and ends no line. -/
theorem skipLines_eq_self {s : List Char}
    (h : ∀ c ∈ s.head?, isSpace c = false ∧ c ≠ '\n' ∧ c ≠ '\r') : skipLines s = s := by
  unfold skipLines
  split
  · exact absurd (h ' ' rfl).1 (by decide)
  · exact absurd (h '\t' rfl).1 (by decide)
  · exact absurd rfl (h '\n' rfl).2.1
  · exact absurd rfl (h '\r' rfl).2.2
  · rfl

/-- A backslash at the end of a line folds it with the lines behind. -/
theorem multiline?_fold {blank n gap s : List Char} (hblank : IsBlank blank) (hn : IsNewline n)
    (hgap : IsGap gap) (hstart : skipLines s = s) (budget : Nat) :
    multiline? '"' (budget + 1) ('\\' :: (blank ++ (n ++ (gap ++ s)))) =
      multiline? '"' budget s := by
  have hclosing := @closing?_cons_of_ne '"' '\\' (by decide) (blank ++ (n ++ (gap ++ s)))
  have hline := @newline?_cons_of_ne '\\' (by decide) (by decide) (blank ++ (n ++ (gap ++ s)))
  have hnewline : skipSpaces (n ++ (gap ++ s)) = n ++ (gap ++ s) := by
    cases hn <;> exact skipSpaces_cons (by decide) _
  have hfold : foldLines? (blank ++ (n ++ (gap ++ s))) = some s := by
    rw [foldLines?, skipSpaces_append hblank, hnewline, newline?_append hn, Option.map_some,
      skipLines_append hgap, hstart]
  simp [multiline?, multilineBasic?, hclosing, hline, hfold]

/-- A text is read from every spelling in a string of several lines. -/
theorem multiline?_of_spells {quote : Char} (hquote : quote = '"' ∨ quote = '\'') {quotes : Nat}
    {s t : List Char} (h : SpellsLines quote quotes s t) (hquotes : quotes ≤ 2) {rest : List Char}
    (hrest : rest.head? ≠ some quote) {budget : Nat} (hbudget : t.length < budget) :
    multiline? quote budget (t ++ [quote, quote, quote] ++ rest) = some (s, rest) := by
  have hclosed : ∀ {quotes s t budget}, SpellsLines quote quotes s t → quotes ≤ 2 →
      (∀ c ∈ t, c = quote) →
      multiline? quote (budget + 1) (t ++ [quote, quote, quote] ++ rest) = some (s, rest) := by
    intro quotes s t budget h hquotes hall
    rw [eq_of_spellsLines_quotes hquote h hall]
    exact multiline?_of_closing hquote
      (closing?_of_quotes (not_three_prefix_of_spellsLines hquote h hquotes) hrest hall) budget
  induction h generalizing budget with
  | nil =>
    obtain ⟨budget, rfl, -⟩ := exists_budget_of_lt hbudget
    exact hclosed .nil hquotes nofun
  | @quote quotes s t hfew h ih =>
    obtain ⟨budget, rfl, hleft⟩ := exists_budget_of_lt hbudget
    have hspelled := SpellsLines.quote hfew h
    -- If nothing but quotes is left, the string is closed here; otherwise one of them is read.
    by_cases hall : ∀ c ∈ quote :: t, c = quote
    · exact hclosed hspelled hquotes hall
    · have hclosing := @closing?_of_other quote _ rest
        (not_three_prefix_of_spellsLines hquote hspelled hquotes) hall
      have hbackslash : quote ≠ '\\' := by rcases hquote with rfl | rfl <;> decide
      have hplain : isPlain quote = true := by rcases hquote with rfl | rfl <;> rfl
      rw [List.cons_append, List.cons_append] at hclosing ⊢
      rw [multiline?_plain hquote hclosing (fun _ => hbackslash) hplain, ih (by omega) hleft]
      rfl
  | plain hplain hc hbackslash _ ih =>
    obtain ⟨budget, rfl, hleft⟩ := exists_budget_of_lt hbudget
    rw [List.cons_append, List.cons_append,
      multiline?_plain hquote (closing?_cons_of_ne hc _) hbackslash hplain,
      ih (Nat.zero_le 2) hleft]
    rfl
  | @newline quotes n s t hn _ ih =>
    obtain ⟨budget, rfl, hleft⟩ := exists_budget_of_lt hbudget
    have hshorter : t.length < budget := by
      have := hn.length_pos
      rw [List.length_append] at hleft
      omega
    rw [List.append_assoc, List.append_assoc, multiline?_newline hquote hn, ← List.append_assoc,
      ih (Nat.zero_le 2) hshorter]
    rfl
  | @escape quotes c code s t hbasic hcode _ ih =>
    subst hbasic
    obtain ⟨budget, rfl, hleft⟩ := exists_budget_of_lt hbudget
    have hshorter : t.length < budget := by
      rw [List.length_cons, List.length_append] at hleft
      omega
    have htext : '\\' :: (code ++ t) ++ ['"', '"', '"'] ++ rest =
        '\\' :: (code ++ (t ++ ['"', '"', '"'] ++ rest)) := by simp
    rw [htext, multiline?_escape hcode, ih (Nat.zero_le 2) hshorter]
    rfl
  | @fold quotes blank n gap s t hbasic hblank hn hgap hstart _ ih =>
    subst hbasic
    obtain ⟨budget, rfl, hleft⟩ := exists_budget_of_lt hbudget
    have hshorter : t.length < budget := by
      simp only [List.length_cons, List.length_append] at hleft
      omega
    have htext : '\\' :: (blank ++ (n ++ (gap ++ t))) ++ ['"', '"', '"'] ++ rest =
        '\\' :: (blank ++ (n ++ (gap ++ (t ++ ['"', '"', '"'] ++ rest)))) := by simp
    have hbehind : skipLines (t ++ ['"', '"', '"'] ++ rest) = t ++ ['"', '"', '"'] ++ rest := by
      refine skipLines_eq_self ?_
      cases t with
      | nil =>
        intro c hc
        obtain rfl : '"' = c := Option.some.inj hc
        decide
      | cons c t => exact hstart
    rw [htext, multiline?_fold hblank hn hgap hbehind, ih (Nat.zero_le 2) hshorter]

/-! ## Strings of every form -/

/-- The text of a string on one line does not begin with two more quotes. -/
theorem string?_of_single {quote a : Char} {s : List Char}
    (h : a ≠ quote ∨ s.head? ≠ some quote) :
    string? quote (a :: s) =
      if quote = '"' then basic? ((a :: s).length + 1) (a :: s) else literal? (a :: s) := by
  cases s with
  | nil => rfl
  | cons b s =>
    have hnot : ¬(a = quote ∧ b = quote) := fun ⟨ha, hb⟩ => by simp [ha, hb] at h
    rw [string?, if_neg hnot]

/-- The text of a string of several lines begins with two more quotes. -/
theorem string?_of_double (quote : Char) (s : List Char) :
    string? quote (quote :: quote :: s) =
      multiline? quote ((skipNewline s).length + 1) (skipNewline s) := by
  rw [string?, if_pos ⟨rfl, rfl⟩]
  rfl

/-- A spelling on one line does not begin with a quote. -/
theorem head?_of_spellsBasic {s t : List Char} (h : SpellsBasic s t) : t.head? ≠ some '"' := by
  cases h with
  | nil => nofun
  | plain _ hquote _ _ => exact fun heq => hquote (Option.some.inj heq)
  | escape _ _ => exact fun heq => absurd (Option.some.inj heq) (by decide)

/-- Every spelling of a text is read as the text, before anything but another quote. -/
theorem string?_of_spells {s t : List Char} (h : SpellsString s t) {rest : List Char}
    (hdouble : rest.head? ≠ some '"') (hsingle : rest.head? ≠ some '\'') :
    ∃ quote body, t = quote :: body ∧ (quote = '"' ∨ quote = '\'') ∧
      string? quote (body ++ rest) = some (s, rest) := by
  cases h with
  | @basic _ t h =>
    refine ⟨'"', t ++ ['"'], rfl, .inl rfl, ?_⟩
    rw [List.append_assoc, List.singleton_append]
    have hread := @basic?_of_spells _ _ h rest ((t ++ '"' :: rest).length + 1)
      (by rw [List.length_append]; omega)
    have hfirst := head?_of_spellsBasic h
    cases t with
    | nil => exact (string?_of_single (.inr hdouble)).trans hread
    | cons c t =>
      exact (string?_of_single (.inl fun hc => hfirst (congrArg some hc))).trans hread
  | literal h =>
    refine ⟨'\'', s ++ ['\''], rfl, .inr rfl, ?_⟩
    rw [List.append_assoc, List.singleton_append]
    have hread := literal?_append h rest
    cases s with
    | nil => exact (string?_of_single (.inr hsingle)).trans hread
    | cons c s => exact (string?_of_single (.inl (h c List.mem_cons_self).1)).trans hread
  | @lines quote opening _ t hquote hopening h =>
    refine ⟨quote, quote :: quote :: (opening ++ (t ++ [quote, quote, quote])), rfl, hquote, ?_⟩
    have htext : quote :: quote :: (opening ++ (t ++ [quote, quote, quote])) ++ rest =
        quote :: quote :: (opening ++ (t ++ [quote, quote, quote] ++ rest)) := by simp
    have hskip : skipNewline (opening ++ (t ++ [quote, quote, quote] ++ rest)) =
        t ++ [quote, quote, quote] ++ rest := by
      rcases hopening with hn | ⟨rfl, hnone⟩
      · rw [skipNewline, newline?_append hn, Option.getD_some]
      · have hline := newline?_append_quote hquote ((newline?_eq_none_iff t).mpr hnone)
          (quote :: quote :: rest)
        simp [skipNewline, hline]
    have hlength : t.length < (t ++ [quote, quote, quote] ++ rest).length + 1 := by
      simp only [List.length_append]
      omega
    have hrest : rest.head? ≠ some quote := by
      rcases hquote with rfl | rfl
      · exact hdouble
      · exact hsingle
    rw [htext, string?_of_double, hskip]
    exact multiline?_of_spells hquote h (Nat.zero_le 2) hrest hlength

/-! ## Escapes that are written -/

/-- A hexadecimal digit of either case reads back as its value. -/
theorem hexValue?_toUpper_hexChar (d : Fin 16) :
    Text.hexValue? (Text.hexChar d).toUpper = some d := by
  revert d
  decide

/-- A hexadecimal numeral denotes the same in capital letters. -/
theorem hexNumber?_map_toUpper (width n : Nat) :
    Text.hexNumber? ((Text.hexNumeral width n).map Char.toUpper) =
      some (n % Nat.pow 16 width) := by
  rw [← Text.hexNumber?_hexNumeral]
  induction width generalizing n with
  | zero => rfl
  | succ width ih =>
    rw [Text.hexNumeral, List.map_append, List.map_singleton, Text.hexNumber?_concat,
      Text.hexNumber?_concat, ih, hexValue?_toUpper_hexChar, Text.hexValue?_hexChar]

/-- A character of a basic string is written as it is, or as one of its escapes. -/
theorem escaped_cases (c : Char) :
    (escaped c = [c] ∧ c ≠ '"' ∧ c ≠ '\\' ∧ isPlain c = true) ∨
      ∃ code, escaped c = '\\' :: code ∧ SpellsEscape c code := by
  by_cases hletter : ∃ l, (c, l) ∈ escapeLetters
  · obtain ⟨l, hl⟩ := hletter
    refine .inr ⟨[l], ?_, .letter hl⟩
    simp only [escapeLetters, List.mem_cons, Prod.mk.injEq, List.not_mem_nil, or_false] at hl
    obtain ⟨rfl, rfl⟩ | ⟨rfl, rfl⟩ | ⟨rfl, rfl⟩ | ⟨rfl, rfl⟩ | ⟨rfl, rfl⟩ | ⟨rfl, rfl⟩ |
      ⟨rfl, rfl⟩ := hl
    all_goals rfl
  obtain ⟨hb, ht, hn, hf, hr, hquote, hbackslash⟩ : c ≠ '\x08' ∧ c ≠ '\t' ∧ c ≠ '\n' ∧
      c ≠ '\x0c' ∧ c ≠ '\r' ∧ c ≠ '"' ∧ c ≠ '\\' := by
    have hnone : c ∉ escapeLetters.map Prod.fst := by
      intro h
      obtain ⟨⟨c, l⟩, hl, rfl⟩ := List.mem_map.mp h
      exact hletter ⟨l, hl⟩
    simpa [escapeLetters] using hnone
  by_cases hcode : c.toNat < 0x20 ∨ c.toNat = 0x7F
  · refine .inr ⟨'u' :: (Text.hexNumeral 4 c.toNat).map Char.toUpper, ?_, .short ?_ ?_⟩
    · simp [escaped, hquote, hbackslash, hb, ht, hn, hf, hr, hcode]
    · simp
    · rw [hexNumber?_map_toUpper, Nat.mod_eq_of_lt]
      exact Nat.lt_of_le_of_lt (show c.toNat ≤ 0x7F by omega) (by decide)
  · refine .inl ⟨?_, hquote, hbackslash, ?_⟩
    · simp [escaped, hquote, hbackslash, hb, ht, hn, hf, hr, hcode]
    · have hplain : 0x20 ≤ c.toNat ∧ c.toNat ≠ 0x7F := by omega
      simp [isPlain, hplain]

/-- Every text is written as a spelling on one line. -/
theorem spellsBasic_flatMap_escaped (s : List Char) : SpellsBasic s (s.flatMap escaped) := by
  induction s with
  | nil => exact .nil
  | cons c s ih =>
    rw [List.flatMap_cons]
    obtain ⟨hself, hquote, hbackslash, hplain⟩ | ⟨code, hcode, hspells⟩ := escaped_cases c
    · rw [hself]
      exact .plain hplain hquote hbackslash ih
    · rw [hcode, List.cons_append]
      exact .escape hspells ih

/-! ## Runs of quotes -/

/-- The longest run is at least as long as the one that is going on, and as the longest
before. -/
theorem le_longestRunFrom (c : Char) (s : List Char) (current longest : Nat) :
    max current longest ≤ longestRunFrom c current longest s := by
  induction s generalizing current longest with
  | nil => exact Nat.le_refl _
  | cons d s ih =>
    rw [longestRunFrom]
    split
    · have := ih (current + 1) longest
      omega
    · have := ih 0 (max current longest)
      omega

/-- A run at the start of a text goes on with the one before it. -/
theorem add_le_longestRunFrom {c : Char} {n : Nat} {s : List Char}
    (h : List.replicate n c <+: s) (current longest : Nat) :
    current + n ≤ longestRunFrom c current longest s := by
  induction n generalizing s current with
  | zero => exact Nat.le_trans (Nat.le_max_left _ _) (le_longestRunFrom c s current longest)
  | succ n ih =>
    cases s with
    | nil => cases List.prefix_nil.mp h
    | cons d s =>
      obtain ⟨rfl, hrest⟩ := List.cons_prefix_cons.mp h
      rw [longestRunFrom, if_pos rfl]
      have := ih hrest (current + 1)
      omega

/-- A run anywhere in a text is not longer than the longest one. -/
theorem le_longestRunFrom_of_run {c : Char} {n : Nat} {s : List Char}
    (h : List.replicate n c <:+: s) (current longest : Nat) :
    n ≤ longestRunFrom c current longest s := by
  induction s generalizing current longest with
  | nil =>
    have hn : n = 0 := by simpa using List.infix_nil.mp h
    omega
  | cons d s ih =>
    obtain hfirst | hlater := List.infix_cons_iff.mp h
    · have := add_le_longestRunFrom hfirst current longest
      omega
    · rw [longestRunFrom]
      split
      · exact ih hlater _ _
      · exact ih hlater _ _

/-- No three quotes stand in a row where the longest run has two of them at most. -/
theorem not_infix_of_longestRun_le_two {quote : Char} {s : List Char}
    (h : longestRun quote s ≤ 2) : ¬[quote, quote, quote] <:+: s := by
  intro hrun
  have := @le_longestRunFrom_of_run quote 3 s hrun 0 0
  exact absurd (Nat.le_trans this h) (by decide)

/-- A character does not occur where its longest run is empty. -/
theorem not_mem_of_longestRun_eq_zero {c : Char} {s : List Char} (h : longestRun c s = 0) :
    c ∉ s := by
  intro hmem
  obtain ⟨before, behind, rfl⟩ := List.append_of_mem hmem
  have hrun : List.replicate 1 c <:+: before ++ c :: behind := ⟨before, behind, by simp⟩
  have := le_longestRunFrom_of_run hrun 0 0
  exact absurd (Nat.le_trans this (Nat.le_of_eq h)) (by decide)

/-! ## Strings that are written -/

/-- A character that needs no escape and ends no line may stand in a string. -/
theorem isPlain_of_isCode_eq_false {c : Char} (hcode : isCode c = false) (hn : c ≠ '\n') :
    isPlain c = true := by
  by_cases ht : c = '\t'
  · simp [isPlain, ht]
  · have hrange : 0x20 ≤ c.toNat ∧ c.toNat ≠ 0x7F := by
      simpa [isCode, ht, hn] using hcode
    simp [isPlain, hrange]

/-- A character that needs no escape is no carriage return. -/
theorem ne_return_of_isCode_eq_false {c : Char} (hcode : isCode c = false) : c ≠ '\r' := by
  rintro rfl
  cases hcode

/-- On several lines, a quote is written as it is unless it is the third in a row, a line end is
written as it is, and every other character as on one line. -/
theorem multilineContent_cons (quotes : Nat) (c : Char) (s : List Char) :
    (c = '"' ∧ quotes ≠ 2 ∧
        multilineContent quotes (c :: s) = c :: multilineContent (quotes + 1) s) ∨
      (c = '\n' ∧ multilineContent quotes (c :: s) = c :: multilineContent 0 s) ∨
      multilineContent quotes (c :: s) = escaped c ++ multilineContent 0 s := by
  rw [multilineContent]
  split
  · next hquote =>
    subst hquote
    split
    · exact .inr (.inr rfl)
    · next hfew => exact .inl ⟨rfl, hfew, rfl⟩
  · split
    · next hn => exact .inr (.inl ⟨hn, by rw [hn]⟩)
    · exact .inr (.inr rfl)

/-- Every text is written as a spelling on several lines, behind quotes that belong to it. -/
theorem spellsLines_multilineContent (s : List Char) {quotes : Nat} (hquotes : quotes ≤ 2) :
    SpellsLines '"' quotes s (multilineContent quotes s) := by
  induction s generalizing quotes with
  | nil => exact .nil
  | cons c s ih =>
    obtain ⟨rfl, hfew, hcontent⟩ | ⟨rfl, hcontent⟩ | hcontent := multilineContent_cons quotes c s
    · rw [hcontent]
      exact .quote (by omega) (ih (by omega))
    · rw [hcontent]
      exact .newline .feed (ih (Nat.zero_le 2))
    · rw [hcontent]
      obtain ⟨hself, hquote, hbackslash, hplain⟩ | ⟨code, hcode, hspells⟩ := escaped_cases c
      · rw [hself]
        exact .plain hplain hquote (fun _ => hbackslash) (ih (Nat.zero_le 2))
      · rw [hcode, List.cons_append]
        exact .escape rfl hspells (ih (Nat.zero_le 2))

/-- A text without codes and without three quotes in a row spells itself on several lines, behind
quotes that belong to it. -/
theorem spellsLines_self {s : List Char} (hcodes : ∀ c ∈ s, isCode c = false)
    (hrun : ¬['\'', '\'', '\''] <:+: s) {quotes : Nat} (hquotes : quotes ≤ 2)
    (hfirst : ¬List.replicate (3 - quotes) '\'' <+: s) : SpellsLines '\'' quotes s s := by
  induction s generalizing quotes with
  | nil => exact .nil
  | cons c s ih =>
    have hbehind := fun d hd => hcodes d (List.mem_cons_of_mem c hd)
    have hshorter : ¬['\'', '\'', '\''] <:+: s := fun hs => hrun (List.infix_cons hs)
    by_cases hc : c = '\''
    · subst hc
      -- As many quotes are left to three as before, without the one that is written here.
      obtain ⟨fewer, hfewer⟩ : ∃ fewer, 3 - quotes = fewer + 1 := ⟨2 - quotes, by omega⟩
      have hrest : ¬List.replicate fewer '\'' <+: s := fun h => hfirst (by
        rw [hfewer, List.replicate_succ]
        exact List.cons_prefix_cons.mpr ⟨rfl, h⟩)
      have hfew : quotes < 2 := Nat.lt_of_not_le fun hmany => by
        obtain rfl : fewer = 0 := by omega
        exact hrest List.nil_prefix
      refine .quote hfew (ih hbehind hshorter (by omega) ?_)
      rwa [show 3 - (quotes + 1) = fewer by omega]
    · have hrest := @ih hbehind hshorter 0 (Nat.zero_le 2) fun h => hshorter h.isInfix
      by_cases hn : c = '\n'
      · subst hn
        exact .newline .feed hrest
      · exact .plain (isPlain_of_isCode_eq_false (hcodes c List.mem_cons_self) hn) hc
          (fun h => absurd h (by decide)) hrest

/-- The line end behind the opening quotes is there if it has to be. -/
theorem openingLine_cases {s t : List Char} (h : '\n' ∉ s → newline? t = none) :
    IsNewline (openingLine s) ∨ openingLine s = [] ∧ ∀ n, IsNewline n → ¬n <+: t := by
  unfold openingLine
  by_cases hlines : '\n' ∈ s
  · rw [if_pos (List.contains_iff_mem.mpr hlines)]
    exact .inl .feed
  · rw [if_neg (mt List.contains_iff_mem.mp hlines)]
    exact .inr ⟨rfl, (newline?_eq_none_iff t).mp (h hlines)⟩

/-- What is written on several lines does not begin with the end of a line, unless the text has line
ends. -/
theorem newline?_multilineContent {s : List Char} (h : '\n' ∉ s) :
    newline? (multilineContent 0 s) = none := by
  cases s with
  | nil => rfl
  | cons c s =>
    obtain ⟨rfl, -, hcontent⟩ | ⟨rfl, -⟩ | hcontent := multilineContent_cons 0 c s
    · rw [hcontent]
      exact newline?_cons_of_ne (by decide) (by decide) _
    · exact absurd List.mem_cons_self h
    · rw [hcontent]
      obtain ⟨hself, -, -, hplain⟩ | ⟨code, hcode, -⟩ := escaped_cases c
      · rw [hself]
        refine newline?_cons_of_ne ?_ ?_ _ <;> rintro rfl <;> cases hplain
      · rw [hcode]
        exact newline?_cons_of_ne (by decide) (by decide) _

/-- A literal string on one line holds no quotes, codes and line ends. -/
theorem isPlain_of_literal {s : List Char} (h : StringForm.of s = .literal) :
    IsLiteral s := by
  simp only [StringForm.of] at h
  split at h
  · cases h
  · split at h
    · next hfits =>
      simp only [Bool.and_eq_true, Bool.not_eq_true', List.any_eq_false, decide_eq_true_eq,
        List.contains_eq_mem, decide_eq_false_iff_not] at hfits
      obtain ⟨⟨hcodes, hsingles⟩, hlines⟩ := hfits
      intro c hc
      have hcode : isCode c = false := Bool.eq_false_iff.mpr (hcodes c hc)
      refine ⟨?_, isPlain_of_isCode_eq_false hcode ?_⟩
      · rintro rfl
        exact not_mem_of_longestRun_eq_zero hsingles hc
      · rintro rfl
        exact hlines hc
    · repeat' split at h
      all_goals cases h

/-- A literal string of several lines holds no codes, and no three quotes in a row. -/
theorem fits_of_multilineLiteral {s : List Char} (h : StringForm.of s = .multilineLiteral) :
    (∀ c ∈ s, isCode c = false) ∧ ¬['\'', '\'', '\''] <:+: s := by
  simp only [StringForm.of] at h
  split at h
  · cases h
  · split at h
    · cases h
    · split at h
      · cases h
      · split at h
        · next hfits =>
          simp only [Bool.and_eq_true, Bool.not_eq_true', List.any_eq_false,
            decide_eq_true_eq] at hfits
          obtain ⟨hcodes, hsingles⟩ := hfits
          exact ⟨fun c hc => Bool.eq_false_iff.mpr (hcodes c hc),
            not_infix_of_longestRun_le_two hsingles⟩
        · split at h <;> cases h

/-- Every text is written as one of its spellings. -/
theorem spellsString_stringText (s : List Char) : SpellsString s (stringText s) := by
  unfold stringText
  cases hform : StringForm.of s with
  | basic => exact .basic (spellsBasic_flatMap_escaped s)
  | literal => exact .literal (isPlain_of_literal hform)
  | multilineBasic =>
    have hspells := SpellsString.lines (.inl rfl) (openingLine_cases newline?_multilineContent)
      (spellsLines_multilineContent s (Nat.zero_le 2))
    simpa [inForm] using hspells
  | multilineLiteral =>
    obtain ⟨hcodes, hrun⟩ := fits_of_multilineLiteral hform
    have hopening := @openingLine_cases s s fun hlines => by
      cases s with
      | nil => rfl
      | cons c s =>
        refine newline?_cons_of_ne ?_
          (ne_return_of_isCode_eq_false (hcodes c List.mem_cons_self)) _
        rintro rfl
        exact hlines List.mem_cons_self
    have hspells := SpellsString.lines (.inr rfl) hopening
      (spellsLines_self hcodes hrun (Nat.zero_le 2) fun h => hrun h.isInfix)
    simpa [inForm] using hspells

end PhasedInduction.Toml
