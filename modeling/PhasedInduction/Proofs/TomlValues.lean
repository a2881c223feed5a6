import PhasedInduction.Proofs.TomlNumbers
import PhasedInduction.Proofs.TomlStrings

/-!
# Keys and values that are written and read

The readers of keys and values follow the grammar.  Where a value ends, the reader of values gives
the value of every spelling, as long as arrays and inline tables do not nest too deep; the induction
is on the spelling, with the length of its text as budget and its height as depth.  What is written
for a setting is one of the spellings of its value.

Main results:

- Theorem {lit}`skipTrivia_append`: what stands around the items of an array is skipped.
- Theorem {lit}`key?_of_spells`: every spelling of a key is read as its path.
- Theorem {lit}`value?_of_spells`: every spelling of a value is read as the value.
- Theorem {lit}`spells_text?`: the value of a setting is written as one of its spellings.
-/

namespace PhasedInduction.Toml

/-! ## Blanks, line ends and comments -/

/-- A space is a space or a tab. -/
theorem isSpace_cases {c : Char} (h : isSpace c = true) : c = ' ' ∨ c = '\t' := by
  simpa [isSpace] using h

/-- The characters of a blank are ends of a value. -/
theorem mem_valueEnds_of_isSpace {c : Char} (h : isSpace c = true) : c ∈ valueEnds := by
  rcases isSpace_cases h with rfl | rfl <;> decide

/-- Spaces and tabs may stand around items. -/
theorem IsBlank.isTrivia {s : List Char} (h : IsBlank s) : IsTrivia s := by
  induction s with
  | nil => exact .nil
  | cons c s ih =>
    exact .space (h c List.mem_cons_self) (ih fun d hd => h d (List.mem_cons_of_mem _ hd))

/-- A value ends in front of what may stand behind it. -/
theorem EndsValue.trivia_append {gap rest : List Char} (hgap : IsTrivia gap)
    (hrest : EndsValue rest) : EndsValue (gap ++ rest) := by
  induction hgap with
  | nil => exact hrest
  | @space c s hc _ ih =>
    constructor
    · intro d hd
      obtain rfl : c = d := Option.some.inj hd
      exact mem_valueEnds_of_isSpace hc
    · intro d more heq
      have hbehind : s ++ rest = d :: more := (List.cons.inj heq).2
      exact (ih.endsDigits.not_decimal d (by rw [hbehind]; rfl)).1
  | newline hn _ _ =>
    cases hn with
    | feed => exact endsValue_cons (by decide) (by decide) _
    | returnFeed => exact endsValue_cons (by decide) (by decide) _
  | comment hcomment _ _ _ =>
    cases hcomment
    exact endsValue_cons (by decide) (by decide) _

/-- Whether a text does not begin with a space, a line end or a comment. -/
def IsContent (s : List Char) : Prop :=
  ∀ c ∈ s.head?, c ∉ [' ', '\t', '\n', '\r', '#']

/-- What does not begin with a space, a line end or a comment is not skipped. -/
theorem skipTrivia_of_isContent {s : List Char} (h : IsContent s) (budget : Nat) :
    skipTrivia budget s = s := by
  match budget, s with
  | 0, _ => rfl
  | budget + 1, [] => rfl
  | budget + 1, c :: s =>
    have hc := h c rfl
    simp only [List.mem_cons, List.not_mem_nil, or_false, not_or] at hc
    obtain ⟨hspace, htab, hn, hr, hcomment⟩ := hc
    rw [skipTrivia.eq_def]
    simp [newline?_cons_of_ne hn hr, isSpace, hspace, htab, hcomment]

/-- Behind a comment stands the end of its line. -/
theorem dropWhile_comment {body n : List Char} (hbody : ∀ c ∈ body, isPlain c = true)
    (hn : IsNewline n) (rest : List Char) :
    (body ++ (n ++ rest)).dropWhile isPlain = n ++ rest := by
  rw [List.dropWhile_append_of_pos hbody]
  cases hn with
  | feed => exact List.dropWhile_cons_of_neg (by decide)
  | returnFeed => exact List.dropWhile_cons_of_neg (by decide)

/-- What stands around the items of an array is skipped. -/
theorem skipTrivia_append {gap rest : List Char} (hgap : IsTrivia gap) (hrest : IsContent rest)
    {budget : Nat} (hbudget : gap.length < budget) : skipTrivia budget (gap ++ rest) = rest := by
  induction hgap generalizing budget with
  | nil => exact skipTrivia_of_isContent hrest budget
  | @space c s hc _ ih =>
    obtain ⟨budget, rfl, hleft⟩ := exists_budget_of_lt hbudget
    have hline : newline? (c :: (s ++ rest)) = none := by
      rcases isSpace_cases hc with rfl | rfl <;> rfl
    rw [List.cons_append, skipTrivia.eq_def]
    simp only [hline, hc, if_true]
    exact ih hleft
  | @newline n s hn _ ih =>
    obtain ⟨budget, rfl, hleft⟩ := exists_budget_of_lt hbudget
    have hshorter : s.length < budget := by
      have := hn.length_pos
      rw [List.length_append] at hleft
      omega
    rw [List.append_assoc, skipTrivia.eq_def]
    simp only [newline?_append hn]
    exact ih hshorter
  | @comment comment n s hcomment hn _ ih =>
    obtain ⟨budget, rfl, hleft⟩ := exists_budget_of_lt hbudget
    obtain ⟨hbody⟩ := hcomment
    rename_i body
    have hshorter : s.length < budget := by
      simp only [List.length_append, List.length_cons] at hleft
      omega
    have hline := @newline?_cons_of_ne '#' (by decide) (by decide) (body ++ (n ++ (s ++ rest)))
    have hspace : isSpace '#' = false := by decide
    rw [List.append_assoc, List.append_assoc, List.cons_append, skipTrivia.eq_def]
    simp only [hline, hspace, dropWhile_comment hbody hn, newline?_append hn, if_true,
      Bool.false_eq_true, if_false]
    exact ih hshorter

/-- The reader of items skips all that stands in front of one. -/
theorem skipTrivia_length_append {gap rest : List Char} (hgap : IsTrivia gap)
    (hrest : IsContent rest) : skipTrivia ((gap ++ rest).length + 1) (gap ++ rest) = rest := by
  refine skipTrivia_append hgap hrest ?_
  rw [List.length_append]
  omega

/-! ## Keys -/

/-- What may follow a key: the equals sign of an assignment, or the bracket of a header. -/
def EndsKey (s : List Char) : Prop := s.head? = some '=' ∨ s.head? = some ']'

/-- Behind a key stands a character that cannot be part of it. -/
theorem EndsKey.exists_cons {s : List Char} (h : EndsKey s) :
    ∃ c more, s = c :: more ∧ isSpace c = false ∧ isBareKey c = false ∧ c ≠ '.' := by
  rcases h with h | h
  · obtain ⟨more, rfl⟩ := List.head?_eq_some_iff.mp h
    exact ⟨_, more, rfl, by decide, by decide, by decide⟩
  · obtain ⟨more, rfl⟩ := List.head?_eq_some_iff.mp h
    exact ⟨_, more, rfl, by decide, by decide, by decide⟩

/-- Whether a character begins a part of a key. -/
def startsName (c : Char) : Bool := isBareKey c || c = '"' || c = '\''

/-- No space begins a part of a key. -/
theorem isSpace_eq_false_of_startsName {c : Char} (h : startsName c = true) :
    isSpace c = false := by
  refine Bool.eq_false_iff.mpr fun hspace => ?_
  rcases isSpace_cases hspace with rfl | rfl
  · exact absurd h (by decide)
  · exact absurd h (by decide)

/-- A part of a key is spelled with a character that begins one. -/
theorem exists_cons_of_spellsName {name : String} {t : List Char} (h : SpellsName name t) :
    ∃ c more, t = c :: more ∧ startsName c = true := by
  cases h with
  | bare hne hbare =>
    obtain ⟨c, more, hname⟩ := List.exists_cons_of_ne_nil hne
    refine ⟨c, more, hname, ?_⟩
    simp [startsName, hbare c (hname ▸ List.mem_cons_self)]
  | basic _ => exact ⟨_, _, rfl, rfl⟩
  | literal _ => exact ⟨_, _, rfl, rfl⟩

/-- Every spelling of a part of a key is read as its name, in front of what no part goes on with. -/
theorem keyPart?_of_spells {name : String} {t : List Char} (h : SpellsName name t)
    {rest : List Char} (hrest : ∀ c ∈ rest.head?, isBareKey c = false) :
    keyPart? (t ++ rest) = some (name, rest) := by
  cases h with
  | bare hne hbare =>
    obtain ⟨c, more, hname⟩ := List.exists_cons_of_ne_nil hne
    have hc : isBareKey c = true := hbare c (hname ▸ List.mem_cons_self)
    have hdouble : c ≠ '"' := by rintro rfl; cases hc
    have hsingle : c ≠ '\'' := by rintro rfl; cases hc
    have hdrop : (name.toList ++ rest).dropWhile isBareKey = rest := by
      rw [List.dropWhile_append_of_pos hbare, dropWhile_eq_self hrest]
    have htake : (name.toList ++ rest).takeWhile isBareKey = name.toList := by
      have hsplit := @List.takeWhile_append_dropWhile _ isBareKey (name.toList ++ rest)
      rw [hdrop] at hsplit
      exact List.append_cancel_right hsplit
    have hofList : String.ofList (c :: more) = name := by rw [← hname, String.ofList_toList]
    rw [hname, List.cons_append] at htake hdrop ⊢
    rw [keyPart?]
    simp only [hdouble, hsingle, if_false, htake, hdrop, hofList]
  | @basic t h =>
    have hread := @basic?_of_spells _ _ h rest ((t ++ '"' :: rest).length + 1)
      (by rw [List.length_append]; omega)
    rw [List.cons_append, List.append_assoc, List.singleton_append, keyPart?, if_pos rfl, hread]
    simp only [Option.map_some, String.ofList_toList]
  | literal h =>
    rw [List.cons_append, List.append_assoc, List.singleton_append, keyPart?,
      if_neg (by decide), if_pos rfl, literal?_append h]
    simp only [Option.map_some, String.ofList_toList]

/-- A key is spelled with blanks, and then with a character that begins one of its parts. -/
theorem exists_append_of_spellsKey {names : List String} {t : List Char} (h : SpellsKey names t) :
    ∃ before c more, t = before ++ c :: more ∧ IsBlank before ∧ startsName c = true ∧
      SpellsKey names (c :: more) := by
  cases h with
  | last hbefore hname hbehind =>
    obtain ⟨c, more, rfl, hc⟩ := exists_cons_of_spellsName hname
    exact ⟨_, c, _, rfl, hbefore, hc, .last isBlank_nil hname hbehind⟩
  | cons hbefore hname hbehind h =>
    obtain ⟨c, more, rfl, hc⟩ := exists_cons_of_spellsName hname
    exact ⟨_, c, _, rfl, hbefore, hc, .cons isBlank_nil hname hbehind h⟩

/-- Blanks do not go on with a part of a key. -/
theorem isBareKey_head?_of_isBlank {blank rest : List Char} (hblank : IsBlank blank)
    (hrest : ∀ c ∈ rest.head?, isBareKey c = false) :
    ∀ c ∈ (blank ++ rest).head?, isBareKey c = false := by
  cases blank with
  | nil => exact hrest
  | cons d blank =>
    rintro c ⟨⟩
    rcases isSpace_cases (hblank d List.mem_cons_self) with rfl | rfl <;> decide

/-- A part of a key is read, with the blanks around it. -/
theorem keyParts?_of_spellsName {name : String} {before t behind rest : List Char}
    (hbefore : IsBlank before) (hname : SpellsName name t) (hbehind : IsBlank behind)
    {c : Char} (hspace : isSpace c = false) (hbare : isBareKey c = false) (budget : Nat) :
    keyParts? (budget + 1) (before ++ (t ++ (behind ++ c :: rest))) =
      if c = '.' then (keyParts? budget rest).map fun (names, rest) => (name :: names, rest)
      else some ([name], c :: rest) := by
  have hstart : skipSpaces (t ++ (behind ++ c :: rest)) = t ++ (behind ++ c :: rest) := by
    obtain ⟨d, more, rfl, hd⟩ := exists_cons_of_spellsName hname
    exact skipSpaces_cons (isSpace_eq_false_of_startsName hd) _
  have hhead : ∀ d ∈ (c :: rest).head?, isBareKey d = false := by simpa using hbare
  have hpart := keyPart?_of_spells hname (isBareKey_head?_of_isBlank hbehind hhead)
  have hends : skipSpaces (behind ++ c :: rest) = c :: rest := by
    rw [skipSpaces_append hbehind, skipSpaces_cons hspace]
  rw [keyParts?, skipSpaces_append hbefore, hstart, hpart]
  simp only [hends]
  split
  · next heq =>
    obtain ⟨rfl, rfl⟩ := List.cons.inj heq
    rw [if_pos rfl]
  · next hdot =>
    rw [if_neg fun hc => hdot rest (by rw [hc])]

/-- The parts of a key are read from every spelling. -/
theorem keyParts?_of_spells {names : List String} {t : List Char} (h : SpellsKey names t)
    {rest : List Char} (hrest : EndsKey rest) {budget : Nat} (hbudget : t.length < budget) :
    keyParts? budget (t ++ rest) = some (names, rest) := by
  induction h generalizing budget with
  | last hbefore hname hbehind =>
    obtain ⟨budget, rfl, -⟩ := exists_budget_of_lt hbudget
    obtain ⟨c, more, rfl, hspace, hbare, hdot⟩ := hrest.exists_cons
    rw [List.append_assoc, List.append_assoc,
      keyParts?_of_spellsName hbefore hname hbehind hspace hbare, if_neg hdot]
  | @cons name names before t behind more hbefore hname hbehind _ ih =>
    obtain ⟨budget, rfl, hleft⟩ := exists_budget_of_lt hbudget
    have hshorter : more.length < budget := by
      simp only [List.length_append, List.length_cons] at hleft
      omega
    rw [List.append_assoc, List.append_assoc, List.append_assoc, List.cons_append,
      keyParts?_of_spellsName hbefore hname hbehind (by decide) (by decide), if_pos rfl,
      ih hshorter, Option.map_some]

section Key

variable {path : List String} {key : String} {t rest : List Char}
  (h : SpellsKey (path ++ [key]) t) (hparts : path.length + 1 < nestingLimit)
  (hrest : EndsKey rest)
include h hparts hrest

/-- Every spelling of a key with few enough parts is read as its path. -/
theorem key?_of_spells : key? (t ++ rest) = some (path, key, rest) := by
  have hread := keyParts?_of_spells h hrest
    (show t.length < (t ++ rest).length + 1 by rw [List.length_append]; omega)
  have hlength : (path ++ [key]).length < nestingLimit := by simpa using hparts
  simp only [key?, hread, if_pos hlength, List.getLast?_concat, List.dropLast_concat,
    Option.map_some]

/-- A key is read the same when the blanks in front of it are skipped. -/
theorem key?_skipSpaces : key? (skipSpaces (t ++ rest)) = some (path, key, rest) := by
  obtain ⟨before, c, more, rfl, hbefore, hc, hspells⟩ := exists_append_of_spellsKey h
  have hread := key?_of_spells hspells hparts hrest
  rw [List.cons_append] at hread
  rw [List.append_assoc, skipSpaces_append hbefore, List.cons_append,
    skipSpaces_cons (isSpace_eq_false_of_startsName hc), hread]

end Key

/-- A key begins with a character that begins one of its parts when the blanks in front of it are
skipped. -/
theorem exists_cons_skipSpaces_key {names : List String} {t : List Char} (h : SpellsKey names t)
    (rest : List Char) : ∃ c more, skipSpaces (t ++ rest) = c :: more ∧ startsName c = true := by
  obtain ⟨before, c, more, rfl, hbefore, hc, -⟩ := exists_append_of_spellsKey h
  refine ⟨c, more ++ rest, ?_, hc⟩
  rw [List.append_assoc, skipSpaces_append hbefore, List.cons_append,
    skipSpaces_cons (isSpace_eq_false_of_startsName hc)]

/-! ## Values -/

/-- What may stand behind a value does not begin one. -/
theorem value?_of_valueEnds {c : Char} (hc : c ∈ valueEnds) (budget depth : Nat) (s : List Char) :
    value? budget depth (c :: s) = none := by
  cases budget with
  | zero => rfl
  | succ budget =>
    simp only [valueEnds, List.mem_cons, List.not_mem_nil, or_false] at hc
    rcases hc with rfl | rfl | rfl | rfl | rfl | rfl | rfl | rfl
    all_goals simp [value?, Text.isDecimal]

/-- What is read as a value begins with a character that may not stand behind one. -/
theorem exists_cons_of_value? {budget depth : Nat} {s : List Char} {read : Item × List Char}
    (h : value? budget depth s = some read) : ∃ c more, s = c :: more ∧ c ∉ valueEnds := by
  cases s with
  | nil => cases budget <;> cases h
  | cons c more =>
    refine ⟨c, more, rfl, fun hc => ?_⟩
    rw [value?_of_valueEnds hc] at h
    cases h

/-- What is read as a value is not skipped. -/
theorem isContent_of_value? {budget depth : Nat} {s : List Char} {read : Item × List Char}
    (h : value? budget depth s = some read) : IsContent s := by
  have hends : ∀ c ∈ [' ', '\t', '\n', '\r', '#'], c ∈ valueEnds :=
    List.all_iff_forall_prop.mp rfl
  obtain ⟨c, more, rfl, hc⟩ := exists_cons_of_value? h
  rintro d ⟨⟩ hd
  exact hc (hends c hd)

/-- No spaces are skipped in front of what is read as a value. -/
theorem skipSpaces_of_value? {budget depth : Nat} {s : List Char} {read : Item × List Char}
    (h : value? budget depth s = some read) : skipSpaces s = s := by
  obtain ⟨c, more, rfl, hc⟩ := exists_cons_of_value? h
  exact skipSpaces_cons (Bool.eq_false_iff.mpr (mt mem_valueEnds_of_isSpace hc)) more

/-- Whether a character begins a number or a date-time. -/
def startsNumber (c : Char) : Bool := c ∈ ['i', 'n', '+', '-'] || Text.isDecimal c

/-- A value that begins like a number is read as one. -/
theorem value?_of_startsNumber {c : Char} (h : startsNumber c = true) (budget depth : Nat)
    (s : List Char) : value? (budget + 1) depth (c :: s) = number? (c :: s) := by
  have hne : ∀ d ∈ ['"', '\'', '[', '\x7b', 't', 'f'], c ≠ d := by
    have hnot : ∀ d ∈ ['"', '\'', '[', '\x7b', 't', 'f'], startsNumber d = false :=
      List.all_iff_forall_prop.mp rfl
    rintro d hd rfl
    exact Bool.false_ne_true ((hnot c hd).symm.trans h)
  have hquotes : ¬(c = '"' ∨ c = '\'') := by
    rintro (hc | hc)
    · exact hne '"' (by decide) hc
    · exact hne '\'' (by decide) hc
  rw [value?, if_neg hquotes, if_neg (hne '[' (by decide)), if_neg (hne '\x7b' (by decide)),
    if_neg (hne 't' (by decide)), if_neg (hne 'f' (by decide))]
  by_cases hword : c = 'i' ∨ c = 'n'
  · rw [if_pos hword]
    exact (number?_of_letter hword s).symm
  · have hdigit : c = '+' ∨ c = '-' ∨ Text.isDecimal c = true := by
      simpa [startsNumber, or_assoc, not_or.mp hword] using h
    rw [if_neg hword, if_pos hdigit]

/-- Whether a text begins like a number or a date-time. -/
def BeginsNumber (t : List Char) : Prop := ∃ c more, t = c :: more ∧ startsNumber c = true

namespace BeginsNumber

variable {t : List Char}

/-- What follows does not matter. -/
theorem append (h : BeginsNumber t) (rest : List Char) : BeginsNumber (t ++ rest) := by
  obtain ⟨c, more, rfl, hc⟩ := h
  exact ⟨c, more ++ rest, rfl, hc⟩

/-- A sign may stand in front. -/
theorem signed (h : BeginsNumber t) {negative : Bool} {mark : List Char}
    (hsign : SpellsSign negative mark) : BeginsNumber (mark ++ t) := by
  cases hsign with
  | none => exact h
  | plus => exact ⟨_, _, rfl, rfl⟩
  | minus => exact ⟨_, _, rfl, rfl⟩

theorem of_spellsWhole {digits : List Char} (h : SpellsWhole digits t) : BeginsNumber t := by
  obtain ⟨d, more, rfl, hd⟩ := exists_cons_of_spellsWhole h
  exact ⟨d, more, rfl, by simp [startsNumber, hd]⟩

theorem of_spellsInteger {n : Int} (h : SpellsInteger n t) : BeginsNumber t := by
  cases h with
  | decimal hsign hdigits => exact (of_spellsWhole hdigits).signed hsign
  | based _ _ => exact ⟨_, _, rfl, rfl⟩

theorem of_spellsFloat (h : SpellsFloat t) : BeginsNumber t := by
  cases h with
  | decimal hsign hwhole _ _ _ _ =>
    exact ((of_spellsWhole hwhole).append _).signed hsign
  | word hsign hword =>
    refine BeginsNumber.signed ?_ hsign
    rcases hword with rfl | rfl <;> exact ⟨_, _, rfl, rfl⟩

/-- A number of digits begins with a digit. -/
theorem of_isNumber {width low high : Nat} (h : IsNumber (width + 1) low high t) :
    BeginsNumber t := by
  cases t with
  | nil => cases h.length_eq
  | cons c more => exact ⟨c, more, rfl, by simp [startsNumber, h.isDecimal c List.mem_cons_self]⟩

theorem of_spellsDate (h : SpellsDate t) : BeginsNumber t := by
  obtain ⟨hyear, -, -⟩ := h
  exact (of_isNumber hyear).append _

theorem of_spellsDateTime (h : SpellsDateTime t) : BeginsNumber t := by
  cases h with
  | date h => exact of_spellsDate h
  | time h =>
    obtain ⟨hhour, -, -, -⟩ := h
    exact (of_isNumber hhour).append _
  | both h _ _ _ => exact (of_spellsDate h).append _

/-- What begins like a number and is read as one is read as a value. -/
theorem value?_eq (h : BeginsNumber t) {rest : List Char} {item : Item}
    (hread : number? (t ++ rest) = some (item, rest)) (budget depth : Nat) :
    value? (budget + 1) depth (t ++ rest) = some (item, rest) := by
  obtain ⟨c, more, rfl, hc⟩ := h
  exact (value?_of_startsNumber hc budget depth _).trans hread

end BeginsNumber

/-- Every spelling of a text is read as a value. -/
theorem value?_of_spellsString {s : String} {t rest : List Char} (h : SpellsString s.toList t)
    (hrest : EndsValue rest) (budget depth : Nat) :
    value? (budget + 1) depth (t ++ rest) = some (.string s, rest) := by
  obtain ⟨quote, body, rfl, hquote, hread⟩ := string?_of_spells h
    (hrest.head_ne (by decide)) (hrest.head_ne (by decide))
  rw [List.cons_append, value?, if_pos hquote, hread]
  simp only [Option.map_some, String.ofList_toList]

/-- An array is read when its items are. -/
theorem value?_of_items? {budget depth : Nat} {s rest : List Char} {items : List Item}
    (hdepth : depth + 1 < nestingLimit) (h : items? budget (depth + 1) s = some (items, rest)) :
    value? (budget + 1) depth ('[' :: s) = some (.array items, rest) := by
  rw [value?, if_neg (by decide), if_pos rfl, if_pos hdepth, h]
  rfl

/-- An inline table without assignments is read. -/
theorem value?_emptyTable {budget depth : Nat} {blank rest : List Char} (hblank : IsBlank blank)
    (hdepth : depth + 1 < nestingLimit) :
    value? (budget + 1) depth ('\x7b' :: (blank ++ '\x7d' :: rest)) =
      some (.table .inline [], rest) := by
  have hskip : skipSpaces (blank ++ '\x7d' :: rest) = '\x7d' :: rest := by
    rw [skipSpaces_append hblank, skipSpaces_cons (by decide)]
  rw [value?, if_neg (by decide), if_neg (by decide), if_pos rfl, if_pos hdepth]
  simp only [hskip]

/-- An inline table is read when its assignments are. -/
theorem value?_of_assignments? {budget depth : Nat} {c : Char} {s more rest : List Char}
    {assignments : List (List String × String × Item)} {item : Item}
    (hdepth : depth + 1 < nestingLimit) (hskip : skipSpaces s = c :: more)
    (hc : startsName c = true)
    (h : assignments? budget (depth + 1) (skipSpaces s) = some (assignments, rest))
    (hbuild : buildInline assignments = some item) :
    value? (budget + 1) depth ('\x7b' :: s) = some (item, rest) := by
  rw [value?, if_neg (by decide), if_neg (by decide), if_pos rfl, if_pos hdepth, hskip]
  split
  · next heq =>
    obtain ⟨rfl, -⟩ := List.cons.inj heq
    cases hc
  · rw [← hskip, h]
    simp only [hbuild, Option.map_some]

/-- A list that ends has no more items. -/
theorem items?_nil {budget depth : Nat} {gap : List Char} (hgap : IsTrivia gap)
    (rest : List Char) : items? (budget + 1) depth (gap ++ ']' :: rest) = some ([], rest) := by
  have hcontent : IsContent (']' :: rest) := by
    rintro c ⟨⟩
    decide
  simp only [items?, skipTrivia_length_append hgap hcontent]

/-- An item is read with what stands around it: behind its comma are the items after it, and behind
a bracket is the end of the list. -/
theorem items?_of_value? {budget depth : Nat} {before s behind rest : List Char} {item : Item}
    (hbefore : IsTrivia before) (hbehind : IsTrivia behind) {mark : Char}
    (hmark : mark = ',' ∨ mark = ']')
    (hvalue : value? budget depth s = some (item, behind ++ mark :: rest)) :
    items? (budget + 1) depth (before ++ s) =
      if mark = ',' then (items? budget depth rest).map fun (items, rest) => (item :: items, rest)
      else some ([item], rest) := by
  have hcontent : IsContent (mark :: rest) := by
    rintro c ⟨⟩
    rcases hmark with rfl | rfl <;> decide
  obtain ⟨c, more, rfl, hc⟩ := exists_cons_of_value? hvalue
  rw [items?, skipTrivia_length_append hbefore (isContent_of_value? hvalue)]
  split
  -- The bracket that ends a list cannot begin the value of an item.
  · next heq =>
    obtain ⟨rfl, -⟩ := List.cons.inj heq
    exact absurd (by decide) hc
  · simp only [hvalue, skipTrivia_length_append hbehind hcontent]
    rcases hmark with rfl | rfl <;> rfl

/-- An assignment is read with the blanks in it: behind its comma are the assignments after it, and
behind a brace is the end of the table. -/
theorem assignments?_of_value? {budget depth : Nat} {path : List String} {key : String}
    {s before t behind rest : List Char} {item : Item}
    (hkey : key? s = some (path, key, '=' :: (before ++ t))) (hbefore : IsBlank before)
    (hbehind : IsBlank behind) {mark : Char} (hmark : mark = ',' ∨ mark = '\x7d')
    (hvalue : value? budget depth t = some (item, behind ++ mark :: rest)) :
    assignments? (budget + 1) depth s =
      if mark = ',' then
        (assignments? budget depth rest).map fun (assignments, rest) =>
          ((path, key, item) :: assignments, rest)
      else some ([(path, key, item)], rest) := by
  have hends : skipSpaces (behind ++ mark :: rest) = mark :: rest := by
    rw [skipSpaces_append hbehind]
    rcases hmark with rfl | rfl <;> exact skipSpaces_cons (by decide) rest
  simp only [assignments?, hkey, skipSpaces_append hbefore, skipSpaces_of_value? hvalue, hvalue,
    hends]
  rcases hmark with rfl | rfl <;> rfl

/-- Assignments are read the same when the blanks in front of them are skipped. -/
theorem assignments?_skipSpaces {height : Nat} {assignments : List (List String × String × Item)}
    {t : List Char} (h : SpellsAssignments height assignments t) (budget depth : Nat)
    (rest : List Char) :
    (∃ c more, skipSpaces (t ++ rest) = c :: more ∧ startsName c = true) ∧
      assignments? budget depth (skipSpaces (t ++ rest)) =
        assignments? budget depth (t ++ rest) := by
  have hsame : ∀ {s : List Char}, key? (skipSpaces s) = key? s →
      assignments? budget depth (skipSpaces s) = assignments? budget depth s := by
    intro s hkey
    cases budget with
    | zero => rfl
    | succ budget =>
      rw [assignments?.eq_def, assignments?.eq_def (budget + 1) depth s]
      simp only [hkey]
  have hends : ∀ more, EndsKey ('=' :: more) := fun _ => .inl rfl
  cases h with
  | last hkey hparts _ _ _ =>
    rw [List.append_assoc, List.cons_append]
    refine ⟨exists_cons_skipSpaces_key hkey _, hsame ?_⟩
    rw [key?_skipSpaces hkey hparts (hends _), key?_of_spells hkey hparts (hends _)]
  | cons hkey hparts _ _ _ _ =>
    rw [List.append_assoc, List.cons_append]
    refine ⟨exists_cons_skipSpaces_key hkey _, hsame ?_⟩
    rw [key?_skipSpaces hkey hparts (hends _), key?_of_spells hkey hparts (hends _)]

/-- A value ends in front of a character that ends one, with blanks or more before it. -/
theorem endsValue_gap_cons {gap : List Char} (hgap : IsTrivia gap) {c : Char} (hc : c ∈ valueEnds)
    (hspace : c ≠ ' ') (rest : List Char) : EndsValue (gap ++ c :: rest) :=
  (endsValue_cons hc hspace rest).trivia_append hgap

mutual

/-- Every spelling of a value is read as the value, where it ends, if it does not nest too deep. -/
theorem value?_of_spells {height : Nat} {item : Item} {t : List Char} (h : Spells height item t)
    {budget depth : Nat} (hbudget : t.length < budget) (hdepth : depth + height < nestingLimit)
    {rest : List Char} (hrest : EndsValue rest) :
    value? budget depth (t ++ rest) = some (item, rest) := by
  obtain ⟨budget, rfl, hleft⟩ := exists_budget_of_lt hbudget
  cases h with
  | string h => exact value?_of_spellsString h hrest budget depth
  | integer h hfits =>
    exact (BeginsNumber.of_spellsInteger h).value?_eq (number?_of_spellsInteger h hfits hrest)
      budget depth
  | float h =>
    exact (BeginsNumber.of_spellsFloat h).value?_eq (number?_of_spellsFloat h hrest) budget depth
  | yes => rfl
  | no => rfl
  | dateTime h =>
    exact (BeginsNumber.of_spellsDateTime h).value?_eq (number?_of_spellsDateTime h hrest)
      budget depth
  | @array height items t h =>
    -- The bracket takes one of the budget and one of the depth.
    have hlength : t.length < budget := hleft
    have hread := items?_of_spells h hlength
      (show depth + 1 + height < nestingLimit by omega) rest
    exact value?_of_items? (by omega) hread
  | emptyTable hblank =>
    rw [List.cons_append, List.append_assoc, List.singleton_append]
    exact value?_emptyTable hblank (by omega)
  | @table height assignments item t h hbuild =>
    have hlength : t.length < budget := hleft
    have hread := assignments?_of_spells h hlength
      (show depth + 1 + height < nestingLimit by omega) rest
    obtain ⟨⟨c, more, hskip, hc⟩, hsame⟩ := assignments?_skipSpaces h budget (depth + 1) rest
    exact value?_of_assignments? (by omega) hskip hc (hsame.trans hread) hbuild

/-- Every spelling of items is read as the items, up to the closing bracket. -/
theorem items?_of_spells {height : Nat} {items : List Item} {t : List Char}
    (h : SpellsItems height items t) {budget depth : Nat} (hbudget : t.length < budget)
    (hdepth : depth + height < nestingLimit) (rest : List Char) :
    items? budget depth (t ++ rest) = some (items, rest) := by
  obtain ⟨budget, rfl, hleft⟩ := exists_budget_of_lt hbudget
  cases h with
  | nil hgap =>
    rw [List.append_assoc, List.singleton_append]
    exact items?_nil hgap rest
  | @last height item before t behind hbefore hitem hbehind =>
    simp only [List.length_append, List.length_cons] at hleft
    have hvalue := value?_of_spells hitem (show t.length < budget by omega) hdepth
      (endsValue_gap_cons hbehind (c := ']') (by decide) (by decide) rest)
    simp only [List.append_assoc, List.singleton_append]
    exact items?_of_value? hbefore hbehind (.inr rfl) hvalue
  | @cons height item items before t behind more hbefore hitem hbehind h =>
    simp only [List.length_append, List.length_cons] at hleft
    have hvalue := value?_of_spells hitem (show t.length < budget by omega) hdepth
      (endsValue_gap_cons hbehind (c := ',') (by decide) (by decide) (more ++ rest))
    have hmore := items?_of_spells h (show more.length < budget by omega) hdepth rest
    simp only [List.append_assoc, List.cons_append]
    rw [items?_of_value? hbefore hbehind (.inl rfl) hvalue, hmore]
    rfl

/-- Every spelling of assignments is read as the assignments, up to the closing brace. -/
theorem assignments?_of_spells {height : Nat} {assignments : List (List String × String × Item)}
    {t : List Char} (h : SpellsAssignments height assignments t) {budget depth : Nat}
    (hbudget : t.length < budget) (hdepth : depth + height < nestingLimit) (rest : List Char) :
    assignments? budget depth (t ++ rest) = some (assignments, rest) := by
  obtain ⟨budget, rfl, hleft⟩ := exists_budget_of_lt hbudget
  cases h with
  | @last height path key item k before t behind hkey hparts hbefore hitem hbehind =>
    simp only [List.length_append, List.length_cons] at hleft
    have hvalue := value?_of_spells hitem (show t.length < budget by omega) hdepth
      (endsValue_gap_cons hbehind.isTrivia (c := '\x7d') (by decide) (by decide) rest)
    have hends : EndsKey ('=' :: (before ++ (t ++ (behind ++ '\x7d' :: rest)))) := .inl rfl
    have hread := key?_of_spells hkey hparts hends
    simp only [List.append_assoc, List.cons_append, List.nil_append]
    exact assignments?_of_value? hread hbefore hbehind (.inr rfl) hvalue
  | @cons height path key item assignments k before t behind more hkey hparts hbefore hitem hbehind
      h =>
    simp only [List.length_append, List.length_cons] at hleft
    have hvalue := value?_of_spells hitem (show t.length < budget by omega) hdepth
      (endsValue_gap_cons hbehind.isTrivia (c := ',') (by decide) (by decide) (more ++ rest))
    have hends : EndsKey ('=' :: (before ++ (t ++ (behind ++ ',' :: (more ++ rest))))) := .inl rfl
    have hread := key?_of_spells hkey hparts hends
    have hmore := assignments?_of_spells h (show more.length < budget by omega) hdepth rest
    simp only [List.append_assoc, List.cons_append]
    rw [assignments?_of_value? hread hbefore hbehind (.inl rfl) hvalue, hmore]
    rfl

end

/-! ## Values that are written -/

/-- What a setting denotes. -/
def Setting.item : Setting → Item
  | .number n => .integer (Int.ofNat n)
  | .text s => .string s
  | .texts l => .array (l.map Item.string)

/-- A text is written as a spelling of it as a value. -/
theorem spells_stringText (height : Nat) (s : String) :
    Spells height (.string s) (stringText s.toList) :=
  .string (spellsString_stringText s.toList)

/-- The line of a text in a list. -/
def itemLine (s : String) : List Char :=
  [' ', ' ', ' ', ' '] ++ stringText s.toList ++ [',', '\n']

/-- The lines of a list, behind a line end, are a spelling of its items. -/
theorem spellsItems_itemLines (height : Nat) (texts : List String) :
    SpellsItems height (texts.map Item.string) ('\n' :: (texts.flatMap itemLine ++ [']'])) := by
  induction texts with
  | nil =>
    have hgap : IsTrivia ['\n'] := .newline .feed .nil
    exact .nil hgap
  | cons s texts ih =>
    have hindent : IsTrivia ['\n', ' ', ' ', ' ', ' '] :=
      IsTrivia.newline IsNewline.feed (IsBlank.isTrivia (by decide))
    have hspells := SpellsItems.cons hindent (spells_stringText height s) .nil ih
    simpa [itemLine] using hspells

/-- A list of texts is written as one of its spellings. -/
theorem spells_listText (height : Nat) (texts : List String) :
    Spells (height + 1) (.array (texts.map Item.string)) (listText texts) := by
  match texts with
  | [] =>
    have hnone : SpellsItems height [] [']'] := .nil .nil
    exact .array hnone
  | [s] =>
    have hspells := SpellsItems.last .nil (spells_stringText height s) .nil
    simpa [listText] using Spells.array hspells
  | s :: t :: texts =>
    have htext : listText (s :: t :: texts) =
        '[' :: '\n' :: ((s :: t :: texts).flatMap itemLine ++ [']']) := rfl
    rw [htext]
    exact .array (spellsItems_itemLines height (s :: t :: texts))

/-- The value of a setting is written as one of its spellings. -/
theorem spells_text? {v : Setting} {value : List Char} (h : v.text? = some value) :
    Spells 1 v.item value := by
  cases v with
  | number n =>
    obtain ⟨hn, htext⟩ := Option.ite_none_right_eq_some.mp h
    obtain rfl : Text.decimal n = value := Option.some.inj htext
    refine .integer (spellsInteger_decimal n) ⟨?_, ?_⟩
    · exact Int.le_trans (by decide) (Int.natCast_nonneg n)
    · exact Int.ofNat_le.mpr hn
  | text s =>
    obtain rfl : stringText s.toList = value := Option.some.inj h
    exact spells_stringText 1 s
  | texts l =>
    obtain rfl : listText l = value := Option.some.inj h
    exact spells_listText 0 l

end PhasedInduction.Toml
