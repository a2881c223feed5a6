import Mathlib.Data.List.TakeDrop
import Mathlib.Data.List.TakeWhile
import PhasedInduction.Json.Printer
import PhasedInduction.Json.Reader

/-!
# JSON texts that are written and read

A value is spelled in many ways, which differ in the blanks between its tokens.  The reader takes
every spelling as the value, and both printers give spellings.  So a value whose numbers are
integers and whose objects have no name twice survives being written and read, on one line or
spread over lines.

Main results:

- Theorem {lit}`stringAfterQuote?_flatMap_escaped`: every string reads back.
- Theorem {lit}`number?_integerText`: every integer reads back.
- Theorem {lit}`read?_of_spells`: every spelling of a value is read as the value.
- Theorems {lit}`read?_compact` and {lit}`read?_pretty`: a plain value reads back from both of its
  texts.
-/

namespace PhasedInduction.Json

/-! ## Strings -/

/-- The four digits of a control character denote its number. -/
theorem fourHex?_controlDigits {c : Char} (h : c.toNat < 0x20) (rest : List Char) :
    fourHex? (controlDigits c ++ rest) = some (c.toNat, rest) := by
  have hall : ∀ n < 0x20, Text.hexNumber? ['0', '0',
      Char.ofNat (if n / 16 < 10 then 48 + n / 16 else 87 + n / 16),
      Char.ofNat (if n % 16 < 10 then 48 + n % 16 else 87 + n % 16)] = some n := by decide
  exact congrArg (Option.map fun n => (n, rest)) (hall c.toNat h)

/-- A character of a string stands for itself, or has an escape that reads back as the
character. -/
theorem escaped_cases (c : Char) :
    (escaped c = [c] ∧ c ≠ '"' ∧ c ≠ '\\' ∧ 0x20 ≤ c.toNat) ∨
      ∃ code, escaped c = '\\' :: code ∧ ∀ rest, escape? (code ++ rest) = some (c, rest) := by
  by_cases hquote : c = '"'
  · subst hquote
    exact .inr ⟨['"'], rfl, fun rest => rfl⟩
  by_cases hbackslash : c = '\\'
  · subst hbackslash
    exact .inr ⟨['\\'], rfl, fun rest => rfl⟩
  by_cases hn : c = '\n'
  · subst hn
    exact .inr ⟨['n'], rfl, fun rest => rfl⟩
  by_cases hr : c = '\r'
  · subst hr
    exact .inr ⟨['r'], rfl, fun rest => rfl⟩
  by_cases ht : c = '\t'
  · subst ht
    exact .inr ⟨['t'], rfl, fun rest => rfl⟩
  by_cases hb : c = '\x08'
  · subst hb
    exact .inr ⟨['b'], rfl, fun rest => rfl⟩
  by_cases hf : c = '\x0c'
  · subst hf
    exact .inr ⟨['f'], rfl, fun rest => rfl⟩
  by_cases hcontrol : c.toNat < 0x20
  · refine .inr ⟨'u' :: controlDigits c, ?_, ?_⟩
    · simp [escaped, hquote, hbackslash, hn, hr, ht, hb, hf, hcontrol]
    · intro rest
      have hhigh : ¬(0xDC00 ≤ c.toNat ∧ c.toNat ≤ 0xDFFF) := by omega
      have hlow : ¬(0xD800 ≤ c.toNat ∧ c.toNat ≤ 0xDBFF) := by omega
      simp only [List.cons_append, escape?, unicodeEscape?, fourHex?_controlDigits hcontrol,
        if_neg hhigh, if_neg hlow, Char.ofNat_toNat]
  · refine .inl ⟨?_, hquote, hbackslash, by omega⟩
    simp [escaped, hquote, hbackslash, hn, hr, ht, hb, hf, hcontrol]

/-- The reader of strings takes a written character as that character. -/
theorem stringBody?_escaped (c : Char) (budget : Nat) (rest : List Char) :
    stringBody? (budget + 1) (escaped c ++ rest) =
      (stringBody? budget rest).map fun body => (c :: body.1, body.2) := by
  obtain ⟨hself, hquote, hbackslash, hprinted⟩ | ⟨code, hcode, hread⟩ := escaped_cases c
  · have hcontrol : ¬c.toNat < 0x20 := by omega
    rw [hself, List.singleton_append, stringBody?]
    · rw [if_neg hcontrol]
      cases stringBody? budget rest <;> rfl
    · exact hquote
    · exact hbackslash
  · rw [hcode, List.cons_append, stringBody?, hread rest]
    simp only [Option.bind_eq_bind, Option.bind_some]
    cases stringBody? budget rest <;> rfl

/-- The written characters of a text up to the closing quote are read as the text. -/
theorem stringBody?_flatMap_escaped (text : List Char) {budget : Nat} (h : text.length < budget)
    (rest : List Char) :
    stringBody? budget (text.flatMap escaped ++ '"' :: rest) = some (text, rest) := by
  induction text generalizing budget with
  | nil =>
    obtain ⟨left, rfl⟩ := Nat.exists_eq_add_of_lt h
    rfl
  | cons c text ih =>
    rw [List.length_cons] at h
    obtain ⟨left, rfl⟩ : ∃ left, budget = left + 1 := ⟨budget - 1, by omega⟩
    rw [List.flatMap_cons, List.append_assoc, stringBody?_escaped, ih (by omega)]
    rfl

/-- A written text is at least as long as the text. -/
theorem length_le_flatMap_escaped (text : List Char) :
    text.length ≤ (text.flatMap escaped).length := by
  induction text with
  | nil => exact Nat.le_refl 0
  | cons c text ih =>
    have hc : 1 ≤ (escaped c).length := by
      obtain ⟨hself, -⟩ | ⟨code, hcode, -⟩ := escaped_cases c
      · rw [hself]
        exact Nat.le_refl 1
      · rw [hcode, List.length_cons]
        omega
    rw [List.flatMap_cons, List.length_append, List.length_cons]
    omega

/-- Every string reads back behind its opening quote. -/
theorem stringAfterQuote?_flatMap_escaped (s : String) (rest : List Char) :
    stringAfterQuote? (s.toList.flatMap escaped ++ '"' :: rest) = some (s, rest) := by
  have hbudget : s.toList.length < (s.toList.flatMap escaped ++ '"' :: rest).length + 1 := by
    have := length_le_flatMap_escaped s.toList
    rw [List.length_append]
    omega
  rw [stringAfterQuote?, stringBody?_flatMap_escaped s.toList hbudget, Option.map_some]
  exact congrArg (fun text => some (text, rest)) String.ofList_toList

/-- The characters of a quoted string. -/
theorem toList_quoted (s : String) :
    (quoted s).toList = '"' :: (s.toList.flatMap escaped ++ ['"']) := by
  rw [quoted, String.toList_ofList, List.cons_append]

/-! ## Integers -/

/-- The numeral of an integer. -/
def integerText : Int → List Char
  | .ofNat n => Text.decimal n
  | .negSucc n => '-' :: Text.decimal (n + 1)

/-- An integer is printed as its numeral. -/
theorem toList_toString_integer (n : Int) : (toString n).toList = integerText n := by
  cases n with
  | ofNat n => exact String.toList_ofList
  | negSucc n =>
    have htext : toString (Int.negSucc n) = "-" ++ Nat.repr (n + 1) := rfl
    rw [htext, String.toList_append]
    exact congrArg (List.cons '-') String.toList_ofList

/-- Whether a text cannot belong to a number in front of it. -/
def EndsNumber (rest : List Char) : Prop :=
  ∀ c ∈ rest.head?, Text.isDecimal c = false ∧ c ≠ '.' ∧ c ≠ 'e' ∧ c ≠ 'E'

theorem endsNumber_nil : EndsNumber [] := by
  intro c hc
  cases hc

theorem endsNumber_cons {c : Char}
    (h : Text.isDecimal c = false ∧ c ≠ '.' ∧ c ≠ 'e' ∧ c ≠ 'E') (rest : List Char) :
    EndsNumber (c :: rest) := by
  intro d hd
  obtain rfl : c = d := Option.some.inj hd
  exact h

/-- A numeral has a digit, and more than one only if the first is not zero. -/
theorem isWholePart_decimal (n : Nat) : isWholePart (Text.decimal n) = true := by
  cases htext : Text.decimal n with
  | nil => exact absurd htext Nat.toDigits_ne_nil
  | cons c digits =>
    by_cases hc : c = '0'
    · subst hc
      obtain rfl := Text.eq_zero_of_decimal_eq_cons htext
      obtain ⟨-, rfl⟩ := List.cons.inj htext
      rfl
    · simp [isWholePart, hc]

/-- A numeral begins with a digit. -/
theorem decimal_append_ne (n : Nat) {c : Char} (hc : Text.isDecimal c = false)
    (rest more : List Char) : Text.decimal n ++ rest ≠ c :: more := by
  intro heq
  cases htext : Text.decimal n with
  | nil => exact absurd htext Nat.toDigits_ne_nil
  | cons d digits =>
    have hd : Text.isDecimal d = true :=
      Text.isDecimal_of_mem_decimal (htext ▸ List.mem_cons_self)
    rw [htext, List.cons_append] at heq
    rw [(List.cons.inj heq).1, hc] at hd
    cases hd

/-- The numeral of an integer begins with a digit or a minus sign. -/
theorem integerText_append_ne (n : Int) {c : Char} (hc : Text.isDecimal c = false)
    (hsign : c ≠ '-') (rest more : List Char) : integerText n ++ rest ≠ c :: more := by
  cases n with
  | ofNat n => exact decimal_append_ne n hc rest more
  | negSucc n =>
    intro heq
    exact hsign (List.cons.inj heq).1.symm

section Numbers

variable {rest : List Char} (hends : EndsNumber rest)
include hends

/-- A numeral is cut where the number ends. -/
theorem span_decimal_append (n : Nat) :
    (Text.decimal n ++ rest).span Text.isDecimal = (Text.decimal n, rest) := by
  have hdigits : ∀ c ∈ Text.decimal n, Text.isDecimal c = true :=
    fun c => Text.isDecimal_of_mem_decimal
  rw [List.span_eq_takeWhile_dropWhile, List.takeWhile_append_of_pos hdigits,
    List.dropWhile_append_of_pos hdigits]
  cases rest with
  | nil => simp
  | cons c more =>
    have hc : ¬Text.isDecimal c = true := by
      rw [(hends c rfl).1]
      exact Bool.false_ne_true
    rw [List.takeWhile_cons_of_neg hc, List.dropWhile_cons_of_neg hc, List.append_nil]

/-- No fraction stands where a number ends. -/
theorem fraction?_of_endsNumber : fraction? rest = some ([], rest) := by
  unfold fraction?
  split
  · exact absurd rfl (hends '.' rfl).2.1
  · rfl

/-- No exponent stands where a number ends. -/
theorem exponent?_of_endsNumber : exponent? rest = some ([], rest) := by
  cases rest with
  | nil => rfl
  | cons c more =>
    obtain ⟨-, -, he, hE⟩ := hends c rfl
    simp [exponent?, he, hE]

/-- Every integer reads back. -/
theorem number?_integerText (n : Int) :
    number? (integerText n ++ rest) = some (integer n, rest) := by
  cases n with
  | ofNat n =>
    have hunsigned := decimal_append_ne n (show Text.isDecimal '-' = false by decide) rest
    unfold number? integerText
    split
    next negative unsigned hsplit =>
    split at hsplit
    · next heq => exact absurd heq (hunsigned _)
    · obtain ⟨rfl, rfl⟩ := Prod.mk.inj hsplit
      simp [-List.span_eq_takeWhile_dropWhile, span_decimal_append hends,
        isWholePart_decimal, fraction?_of_endsNumber hends, exponent?_of_endsNumber hends]
  | negSucc n =>
    have hsize : (Int.ofNat (n + 1) == 0) = false := rfl
    simp only [number?, integerText, List.cons_append, span_decimal_append hends,
      isWholePart_decimal, if_true, fraction?_of_endsNumber hends,
      exponent?_of_endsNumber hends, Option.bind_eq_bind, Option.bind_some, List.isEmpty_nil,
      Bool.true_and, Text.decimalValue_decimal, hsize, Bool.false_eq_true, if_false]
    rfl

end Numbers

/-! ## Blanks -/

/-- Whether a text is blank between the tokens of a value. -/
def IsBlank (blanks : List Char) : Prop := skipBlanks blanks = []

theorem isBlank_nil : IsBlank [] := rfl

/-- Blanks in front of a text are skipped. -/
theorem skipBlanks_append {blanks : List Char} (h : IsBlank blanks) (rest : List Char) :
    skipBlanks (blanks ++ rest) = skipBlanks rest := by
  exact List.dropWhile_append_of_pos (List.dropWhile_eq_nil_iff.mp h)

/-- Whether a text begins with a character that is no blank and closes no array. -/
def StartsValue (s : List Char) : Prop :=
  ∀ rest, skipBlanks (s ++ rest) = s ++ rest ∧ ∀ more, s ++ rest ≠ ']' :: more

/-- An integer begins with no blank and closes no array. -/
theorem startsValue_integerText (n : Int) : StartsValue (integerText n) := by
  intro rest
  constructor
  · cases hchars : integerText n ++ rest with
    | nil => rfl
    | cons c more =>
      refine List.dropWhile_cons_of_neg ?_
      intro hblank
      simp only [Bool.or_eq_true, decide_eq_true_eq] at hblank
      rcases hblank with ((rfl | rfl) | rfl) | rfl
      all_goals exact integerText_append_ne n (by decide) (by decide) rest more hchars
  · exact integerText_append_ne n (by decide) (by decide) rest

/-! ## Spellings -/

mutual

/-- How a value may be spelled: blanks may stand behind an opening bracket, behind a comma or a
colon, and in front of a closing bracket. -/
inductive Spells : Json → List Char → Prop
  | null : Spells .null ['n', 'u', 'l', 'l']
  | yes : Spells (.bool true) ['t', 'r', 'u', 'e']
  | no : Spells (.bool false) ['f', 'a', 'l', 's', 'e']
  | integer (n : Int) : Spells (.integer n) (integerText n)
  | string (s : String) : Spells (.string s) (quoted s).toList
  | noItems : Spells (.array []) ['[', ']']
  | array {items : List Json} {blanks s : List Char} (hblanks : IsBlank blanks)
      (hitems : SpellsItems items s) : Spells (.array items) ('[' :: (blanks ++ s ++ [']']))
  | noMembers : Spells (.object []) ['\x7b', '\x7d']
  | object {members : Members} {blanks s : List Char} (hnames : (members.map Prod.fst).Nodup)
      (hblanks : IsBlank blanks) (hmembers : SpellsMembers members s) :
      Spells (.object members) ('\x7b' :: (blanks ++ s ++ ['\x7d']))

/-- How the items of an array may be spelled. -/
inductive SpellsItems : List Json → List Char → Prop
  | last {item : Json} {blanks s : List Char} (hitem : Spells item s)
      (hblanks : IsBlank blanks) : SpellsItems [item] (s ++ blanks)
  | cons {item : Json} {items : List Json} {blanks s t : List Char} (hitem : Spells item s)
      (hblanks : IsBlank blanks) (hitems : SpellsItems items t) :
      SpellsItems (item :: items) (s ++ ',' :: (blanks ++ t))

/-- How the members of an object may be spelled. -/
inductive SpellsMembers : Members → List Char → Prop
  | last (name : String) {value : Json} {gap blanks s : List Char} (hgap : IsBlank gap)
      (hvalue : Spells value s) (hblanks : IsBlank blanks) :
      SpellsMembers [(name, value)] ((quoted name).toList ++ ':' :: (gap ++ s ++ blanks))
  | cons (name : String) {value : Json} {members : Members} {gap blanks s t : List Char}
      (hgap : IsBlank gap) (hvalue : Spells value s) (hblanks : IsBlank blanks)
      (hmembers : SpellsMembers members t) :
      SpellsMembers ((name, value) :: members)
        ((quoted name).toList ++ ':' :: (gap ++ s ++ ',' :: (blanks ++ t)))

end

/-! ## Reading a spelling -/

/-- A spelling begins with no blank and closes no array. -/
theorem startsValue_of_spells {j : Json} {s : List Char} (h : Spells j s) : StartsValue s := by
  cases h with
  | integer n => exact startsValue_integerText n
  | string text =>
    intro rest
    rw [toList_quoted]
    exact ⟨rfl, by simp⟩
  | _ => exact fun rest => ⟨rfl, by simp⟩

/-- The items of an array begin with no blank and do not close it. -/
theorem startsValue_of_spellsItems {items : List Json} {s : List Char}
    (h : SpellsItems items s) : StartsValue s := by
  intro rest
  cases h with
  | last hitem hblanks =>
    rw [List.append_assoc]
    exact startsValue_of_spells hitem _
  | cons hitem hblanks hitems =>
    rw [List.append_assoc]
    exact startsValue_of_spells hitem _

/-- The members of an object begin with the quote of a name. -/
theorem exists_eq_quote_of_spellsMembers {members : Members} {s : List Char}
    (h : SpellsMembers members s) : ∃ more, s = '"' :: more := by
  cases h with
  | last name hgap hvalue hblanks =>
    rw [toList_quoted]
    exact ⟨_, rfl⟩
  | cons name hgap hvalue hblanks hmembers =>
    rw [toList_quoted]
    exact ⟨_, rfl⟩

/-- An integer is read as a value. -/
theorem value?_integerText (n : Int) {rest : List Char} (hends : EndsNumber rest)
    (budget : Nat) : value? (budget + 1) (integerText n ++ rest) = some (integer n, rest) := by
  have hstart := fun (c : Char) (hc : Text.isDecimal c = false) (hsign : c ≠ '-') =>
    integerText_append_ne n hc hsign rest
  rw [← number?_integerText hends n]
  unfold value?
  split
  · next hnil =>
    rw [hnil]
    rfl
  · next heq => exact absurd heq (hstart _ (by decide) (by decide) _)
  · next heq => exact absurd heq (hstart _ (by decide) (by decide) _)
  · next heq => exact absurd heq (hstart _ (by decide) (by decide) _)
  · next heq => exact absurd heq (hstart _ (by decide) (by decide) _)
  · next heq => exact absurd heq (hstart _ (by decide) (by decide) _)
  · next heq => exact absurd heq (hstart _ (by decide) (by decide) _)
  · rfl

/-- A string is read as a value. -/
theorem value?_quoted (s : String) (budget : Nat) (rest : List Char) :
    value? (budget + 1) ((quoted s).toList ++ rest) = some (string s, rest) := by
  rw [toList_quoted]
  simp only [List.cons_append, List.append_assoc, List.nil_append, value?,
    stringAfterQuote?_flatMap_escaped, Option.map_some]

/-- A blank ends a number. -/
theorem endsNumber_blank {c : Char} {blanks : List Char} (h : IsBlank (c :: blanks))
    (rest : List Char) : EndsNumber (c :: rest) := by
  refine endsNumber_cons ?_ _
  have hc := List.dropWhile_eq_nil_iff.mp h c List.mem_cons_self
  simp only [Bool.or_eq_true, decide_eq_true_eq] at hc
  rcases hc with ((rfl | rfl) | rfl) | rfl
  all_goals decide

/-- What stands behind a value in an array or an object, behind blanks, ends a number. -/
theorem endsNumber_blanks_append {blanks : List Char} (h : IsBlank blanks) {c : Char}
    (hc : Text.isDecimal c = false ∧ c ≠ '.' ∧ c ≠ 'e' ∧ c ≠ 'E') (rest : List Char) :
    EndsNumber (blanks ++ c :: rest) := by
  cases blanks with
  | nil => exact endsNumber_cons hc rest
  | cons d more => exact endsNumber_blank h _

/-- Blanks behind the last value end a number. -/
theorem endsNumber_of_isBlank {blanks : List Char} (h : IsBlank blanks) : EndsNumber blanks := by
  cases blanks with
  | nil => exact endsNumber_nil
  | cons c more => exact endsNumber_blank h more

/-- A new name stands behind the members before it. -/
theorem setMember_of_not_mem {members : Members} {name : String} (value : Json)
    (h : name ∉ members.map Prod.fst) :
    setMember members name value = members ++ [(name, value)] := by
  rw [setMember, List.filter_eq_self.mpr]
  intro member hmember
  simp only [bne_iff_ne]
  rintro rfl
  exact h (List.mem_map_of_mem hmember)

/-- A name that stands behind members of other names is new. -/
theorem not_mem_of_nodup {seen members : Members} {name : String} {value : Json}
    (h : ((seen ++ (name, value) :: members).map Prod.fst).Nodup) :
    name ∉ seen.map Prod.fst := by
  rw [List.map_append, List.nodup_append] at h
  intro hmem
  exact h.2.2 name hmem name List.mem_cons_self rfl

/-- The members of an object are read behind the first of them, whose name is new. -/
theorem members?_of_value? {seen : Members} {name : String} {value : Json}
    (hnew : name ∉ seen.map Prod.fst) {gap s behind : List Char} (hgap : IsBlank gap)
    (hstart : skipBlanks s = s) {budget : Nat}
    (hvalue : value? budget s = some (value, behind)) :
    members? (budget + 1) seen ((quoted name).toList ++ ':' :: (gap ++ s)) =
      match skipBlanks behind with
      | ',' :: rest => members? budget (seen ++ [(name, value)]) (skipBlanks rest)
      | '\x7d' :: rest => some (seen ++ [(name, value)], rest)
      | _ => none := by
  have htext : (quoted name).toList ++ ':' :: (gap ++ s) =
      '"' :: (name.toList.flatMap escaped ++ '"' :: ':' :: (gap ++ s)) := by
    rw [toList_quoted, List.cons_append, List.append_assoc, List.singleton_append]
  have hcolon : skipBlanks (':' :: (gap ++ s)) = ':' :: (gap ++ s) := rfl
  rw [htext, members?]
  simp only [stringAfterQuote?_flatMap_escaped, Option.bind_eq_bind, Option.bind_some, hcolon,
    skipBlanks_append hgap, hstart, hvalue, setMember_of_not_mem value hnew]
  rfl

mutual

/-- A value is read from every spelling in front of what ends a number. -/
theorem value?_of_spells {j : Json} {s : List Char} (h : Spells j s) {budget : Nat}
    (hbudget : s.length < budget) {rest : List Char} (hends : EndsNumber rest) :
    value? budget (s ++ rest) = some (j, rest) := by
  obtain ⟨budget, rfl⟩ : ∃ left, budget = left + 1 := ⟨budget - 1, by omega⟩
  cases h with
  | null => rfl
  | yes => rfl
  | no => rfl
  | integer n => exact value?_integerText n hends budget
  | string text => exact value?_quoted text budget rest
  | noItems => rfl
  | @array items blanks s hblanks hitems =>
    have hlength : s.length + 1 < budget := by
      simp only [List.length_cons, List.length_append] at hbudget
      omega
    have hread := items?_of_spellsItems hitems hlength [] rest
    obtain ⟨hskip, hopen⟩ := startsValue_of_spellsItems hitems (']' :: rest)
    have htext : '[' :: (blanks ++ s ++ [']']) ++ rest = '[' :: (blanks ++ (s ++ ']' :: rest)) := by
      simp
    rw [htext, value?, skipBlanks_append hblanks, hskip]
    split
    · next more heq => exact absurd heq (hopen more)
    · rw [hread]
      rfl
  | noMembers => rfl
  | @object members blanks s hnames hblanks hmembers =>
    have hlength : s.length + 1 < budget := by
      simp only [List.length_cons, List.length_append] at hbudget
      omega
    have hread := members?_of_spellsMembers hmembers hlength [] hnames rest
    obtain ⟨more, rfl⟩ := exists_eq_quote_of_spellsMembers hmembers
    have htext : '\x7b' :: (blanks ++ '"' :: more ++ ['\x7d']) ++ rest =
        '\x7b' :: (blanks ++ ('"' :: more ++ '\x7d' :: rest)) := by
      simp
    have hskip : skipBlanks ('"' :: more ++ '\x7d' :: rest) = '"' :: more ++ '\x7d' :: rest := rfl
    rw [htext, value?, skipBlanks_append hblanks, hskip]
    split
    · next heq => cases heq
    · rw [hread]
      rfl

/-- The items of an array are read from every spelling. -/
theorem items?_of_spellsItems {items : List Json} {s : List Char} (h : SpellsItems items s)
    {budget : Nat} (hbudget : s.length + 1 < budget) (seen : List Json) (rest : List Char) :
    items? budget seen (s ++ ']' :: rest) = some (seen.reverse ++ items, rest) := by
  obtain ⟨budget, rfl⟩ : ∃ left, budget = left + 1 := ⟨budget - 1, by omega⟩
  cases h with
  | @last item blanks s hitem hblanks =>
    rw [List.length_append] at hbudget
    have hread := value?_of_spells hitem (show s.length < budget by omega)
      (endsNumber_blanks_append hblanks (show Text.isDecimal ']' = false ∧ _ by decide) rest)
    rw [List.append_assoc, items?, hread]
    simp only [Option.bind_eq_bind, Option.bind_some, skipBlanks_append hblanks]
    exact congrArg (fun items => some (items, rest)) List.reverse_cons
  | @cons item items blanks s t hitem hblanks hitems =>
    simp only [List.length_append, List.length_cons] at hbudget
    have hread := value?_of_spells hitem (show s.length < budget by omega)
      (endsNumber_cons (show Text.isDecimal ',' = false ∧ _ by decide)
        (blanks ++ t ++ ']' :: rest))
    have hmore := items?_of_spellsItems hitems (show t.length + 1 < budget by omega)
      (item :: seen) rest
    have hskip := (startsValue_of_spellsItems hitems (']' :: rest)).1
    have hcomma : skipBlanks (',' :: (blanks ++ t ++ ']' :: rest)) =
        ',' :: (blanks ++ t ++ ']' :: rest) := rfl
    rw [List.append_assoc, List.cons_append, items?, hread]
    simp only [Option.bind_eq_bind, Option.bind_some, hcomma]
    rw [List.append_assoc, skipBlanks_append hblanks, hskip, hmore, List.reverse_cons,
      List.append_assoc, List.singleton_append]

/-- The members of an object are read from every spelling. -/
theorem members?_of_spellsMembers {members : Members} {s : List Char}
    (h : SpellsMembers members s) {budget : Nat} (hbudget : s.length + 1 < budget)
    (seen : Members) (hnames : ((seen ++ members).map Prod.fst).Nodup) (rest : List Char) :
    members? budget seen (s ++ '\x7d' :: rest) = some (seen ++ members, rest) := by
  obtain ⟨budget, rfl⟩ : ∃ left, budget = left + 1 := ⟨budget - 1, by omega⟩
  cases h with
  | @last name value gap blanks s hgap hvalue hblanks =>
    simp only [List.length_append, List.length_cons] at hbudget
    have hread := value?_of_spells hvalue (show s.length < budget by omega)
      (endsNumber_blanks_append hblanks (show Text.isDecimal '\x7d' = false ∧ _ by decide) rest)
    have hstart := (startsValue_of_spells hvalue (blanks ++ '\x7d' :: rest)).1
    have htext : (quoted name).toList ++ ':' :: (gap ++ s ++ blanks) ++ '\x7d' :: rest =
        (quoted name).toList ++ ':' :: (gap ++ (s ++ (blanks ++ '\x7d' :: rest))) := by
      simp only [List.append_assoc, List.cons_append]
    rw [htext, members?_of_value? (not_mem_of_nodup hnames) hgap hstart hread,
      skipBlanks_append hblanks]
    rfl
  | @cons name value members gap blanks s t hgap hvalue hblanks hmembers =>
    simp only [List.length_append, List.length_cons] at hbudget
    have hread := value?_of_spells hvalue (show s.length < budget by omega)
      (endsNumber_cons (show Text.isDecimal ',' = false ∧ _ by decide)
        (blanks ++ (t ++ '\x7d' :: rest)))
    have hstart := (startsValue_of_spells hvalue (',' :: (blanks ++ (t ++ '\x7d' :: rest)))).1
    have htext : (quoted name).toList ++ ':' :: (gap ++ s ++ ',' :: (blanks ++ t)) ++
          '\x7d' :: rest =
        (quoted name).toList ++
          ':' :: (gap ++ (s ++ ',' :: (blanks ++ (t ++ '\x7d' :: rest)))) := by
      simp only [List.append_assoc, List.cons_append]
    have hcomma : skipBlanks (',' :: (blanks ++ (t ++ '\x7d' :: rest))) =
        ',' :: (blanks ++ (t ++ '\x7d' :: rest)) := rfl
    have hquote : skipBlanks (t ++ '\x7d' :: rest) = t ++ '\x7d' :: rest := by
      obtain ⟨more, rfl⟩ := exists_eq_quote_of_spellsMembers hmembers
      rfl
    have hmore := members?_of_spellsMembers hmembers (show t.length + 1 < budget by omega)
      (seen ++ [(name, value)]) (by simpa using hnames) rest
    rw [htext, members?_of_value? (not_mem_of_nodup hnames) hgap hstart hread, hcomma]
    simp only [skipBlanks_append hblanks, hquote, hmore, List.append_assoc,
      List.singleton_append]

end

/-- Every spelling of a value is read as the value, whatever blanks stand behind it. -/
theorem read?_of_spells_append {j : Json} {s blanks : List Char} (h : Spells j s)
    (hblanks : IsBlank blanks) {text : String} (htext : text.toList = s ++ blanks) :
    read? text = some j := by
  have hstart := (startsValue_of_spells h blanks).1
  have hbudget : s.length < text.toList.length + 1 := by
    rw [htext, List.length_append]
    omega
  have hread := value?_of_spells h hbudget (endsNumber_of_isBlank hblanks)
  have hrest : (skipBlanks blanks).isEmpty = true := List.isEmpty_iff.mpr hblanks
  rw [← htext] at hstart hread
  rw [read?, hstart, hread]
  exact if_pos hrest

/-- Every spelling of a value is read as the value. -/
theorem read?_of_spells {j : Json} {text : String} (h : Spells j text.toList) :
    read? text = some j :=
  read?_of_spells_append h isBlank_nil (List.append_nil _).symm

/-! ## Printing a spelling -/

mutual

/-- Whether the numbers of a value are integers and no object has a name twice. -/
def IsPlain : Json → Prop
  | decimal _ => False
  | array items => ArePlainItems items
  | object members => (members.map Prod.fst).Nodup ∧ ArePlainMembers members
  | _ => True

/-- Whether all items are plain. -/
def ArePlainItems : List Json → Prop
  | [] => True
  | item :: items => item.IsPlain ∧ ArePlainItems items

/-- Whether the values of all members are plain. -/
def ArePlainMembers : List (String × Json) → Prop
  | [] => True
  | (_, value) :: members => value.IsPlain ∧ ArePlainMembers members

end

/-- Items are plain one by one. -/
theorem arePlainItems_iff {items : List Json} :
    ArePlainItems items ↔ ∀ item ∈ items, item.IsPlain := by
  induction items with
  | nil => simp [ArePlainItems]
  | cons item items ih => simp [ArePlainItems, ih]

/-- Members are plain one by one. -/
theorem arePlainMembers_iff {members : Members} :
    ArePlainMembers members ↔ ∀ member ∈ members, member.2.IsPlain := by
  induction members with
  | nil => simp [ArePlainMembers]
  | cons member members ih => simp [ArePlainMembers, ih]

theorem isBlank_space : IsBlank [' '] := rfl

/-- The start of a new line is blank. -/
theorem isBlank_indented (depth : Nat) : IsBlank (indented depth).toList := by
  rw [indented, String.toList_ofList]
  refine List.dropWhile_eq_nil_iff.mpr ?_
  intro c hc
  rcases List.mem_cons.mp hc with rfl | hc
  · decide
  · rw [(List.mem_replicate.mp hc).2]
    decide

mutual

/-- A plain value on one line is a spelling of it. -/
theorem spells_compact {j : Json} (h : j.IsPlain) : Spells j j.compact.toList := by
  match j, h with
  | null, _ => exact .null
  | bool true, _ => exact .yes
  | bool false, _ => exact .no
  | integer n, _ =>
    rw [compact, toList_toString_integer]
    exact .integer n
  | string s, _ => exact .string s
  | array [], _ => exact .noItems
  | array (item :: items), h =>
    have hitems := spellsItems_compactItems (List.cons_ne_nil item items) h
    have hspells := Spells.array isBlank_nil hitems
    simpa [compact, String.toList_append] using hspells
  | object [], _ => exact .noMembers
  | object (member :: members), h =>
    have hmembers := spellsMembers_compactMembers (List.cons_ne_nil member members) h.2
    have hspells := Spells.object h.1 isBlank_nil hmembers
    simpa [compact, String.toList_append] using hspells

/-- Items on one line are spelled. -/
theorem spellsItems_compactItems {items : List Json} (hne : items ≠ [])
    (h : ArePlainItems items) : SpellsItems items (compactItems items).toList := by
  match items, hne, h with
  | [item], _, h =>
    have hspells := SpellsItems.last (spells_compact h.1) isBlank_nil
    simpa [compactItems] using hspells
  | item :: next :: items, _, h =>
    have hitems := spellsItems_compactItems (List.cons_ne_nil next items) h.2
    have hspells := SpellsItems.cons (spells_compact h.1) isBlank_nil hitems
    simpa [compactItems, String.toList_append] using hspells

/-- Members on one line are spelled. -/
theorem spellsMembers_compactMembers {members : List (String × Json)} (hne : members ≠ [])
    (h : ArePlainMembers members) : SpellsMembers members (compactMembers members).toList := by
  match members, hne, h with
  | [(name, value)], _, h =>
    have hspells := SpellsMembers.last name isBlank_nil (spells_compact h.1) isBlank_nil
    simpa [compactMembers, String.toList_append] using hspells
  | (name, value) :: next :: members, _, h =>
    have hmembers := spellsMembers_compactMembers (List.cons_ne_nil next members) h.2
    have hspells := SpellsMembers.cons name isBlank_nil (spells_compact h.1) isBlank_nil hmembers
    simpa [compactMembers, String.toList_append] using hspells

end

mutual

/-- A plain value spread over lines is a spelling of it. -/
theorem spells_prettyAt (depth : Nat) {j : Json} (h : j.IsPlain) :
    Spells j (prettyAt depth j).toList := by
  match j, h with
  | null, _ =>
    rw [prettyAt]
    exact .null
  | bool true, _ =>
    rw [prettyAt]
    exact .yes
  | bool false, _ =>
    rw [prettyAt]
    exact .no
  | integer n, _ =>
    rw [prettyAt, toList_toString_integer]
    exact .integer n
  | string s, _ => exact .string s
  | array [], _ =>
    rw [prettyAt]
    exact .noItems
  | array (item :: items), h =>
    have hitems := spellsItems_prettyItems (depth + 1) (spells_prettyAt (depth + 1) h.1) h.2
      (isBlank_indented depth)
    have hspells := Spells.array (isBlank_indented (depth + 1)) hitems
    simpa [prettyAt, String.toList_append] using hspells
  | object [], _ =>
    rw [prettyAt]
    exact .noMembers
  | object ((name, value) :: members), h =>
    have hmembers := spellsMembers_prettyMembers (depth + 1) name
      (spells_prettyAt (depth + 1) h.2.1) h.2.2 (isBlank_indented depth)
    have hspells := Spells.object h.1 (isBlank_indented (depth + 1)) hmembers
    simpa [prettyAt, String.toList_append] using hspells

/-- Items spread over lines are spelled, the first of them in any way. -/
theorem spellsItems_prettyItems (depth : Nat) {item : Json} {s : List Char}
    (hitem : Spells item s) {items : List Json} (h : ArePlainItems items) {blanks : List Char}
    (hblanks : IsBlank blanks) :
    SpellsItems (item :: items) (s ++ (prettyItems depth items).toList ++ blanks) := by
  match items, h with
  | [], _ =>
    have hspells := SpellsItems.last hitem hblanks
    simpa [prettyItems] using hspells
  | next :: items, h =>
    have hitems := spellsItems_prettyItems depth (spells_prettyAt depth h.1) h.2 hblanks
    have hspells := SpellsItems.cons hitem (isBlank_indented depth) hitems
    simpa [prettyItems, String.toList_append] using hspells

/-- Members spread over lines are spelled, the value of the first of them in any way. -/
theorem spellsMembers_prettyMembers (depth : Nat) (name : String) {value : Json} {s : List Char}
    (hvalue : Spells value s) {members : List (String × Json)} (h : ArePlainMembers members)
    {blanks : List Char} (hblanks : IsBlank blanks) :
    SpellsMembers ((name, value) :: members)
      ((quoted name).toList ++
        ':' :: ' ' :: (s ++ (prettyMembers depth members).toList ++ blanks)) := by
  match members, h with
  | [], _ =>
    have hspells := SpellsMembers.last name isBlank_space hvalue hblanks
    simpa [prettyMembers] using hspells
  | (other, next) :: members, h =>
    have hmembers := spellsMembers_prettyMembers depth other (spells_prettyAt depth h.1) h.2
      hblanks
    have hspells :=
      SpellsMembers.cons name isBlank_space hvalue (isBlank_indented depth) hmembers
    simpa [prettyMembers, String.toList_append] using hspells

end

/-- A plain value reads back from its text on one line. -/
theorem read?_compact {j : Json} (h : j.IsPlain) : read? j.compact = some j :=
  read?_of_spells (spells_compact h)

/-- A plain value reads back from its text spread over lines. -/
theorem read?_pretty {j : Json} (h : j.IsPlain) : read? j.pretty = some j :=
  read?_of_spells (spells_prettyAt 0 h)

/-- A plain value reads back from its text spread over lines with blanks behind it. -/
theorem read?_pretty_append {j : Json} (h : j.IsPlain) {blanks : String}
    (hblanks : IsBlank blanks.toList) : read? (j.pretty ++ blanks) = some j :=
  read?_of_spells_append (spells_prettyAt 0 h) hblanks (String.toList_append ..)

end PhasedInduction.Json
