import PhasedInduction.Proofs.TomlGrammar

/-!
# Numbers and date-times that are read

The readers of integers, floats and date-times follow the grammar where the value ends.  Which of
the three a text is shows behind its first digits: a date has a dash there and a time a colon, and
no number has either.

Main results:

- Theorem {lit}`number?_of_spellsInteger`: every spelling of an integer is read as the integer.
- Theorem {lit}`roundsToInfinity_of_isFinite`: what is not rounded to infinity is accepted.
- Theorem {lit}`number?_of_spellsFloat`: every spelling of a float is read.
- Theorem {lit}`number?_of_spellsDateTime`: every spelling of a date-time is read.
- Theorem {lit}`spellsInteger_decimal`: the numeral of a number is one of its spellings.
-/

namespace PhasedInduction.Toml

/-! ## Where a value ends -/

/-- The characters that may stand behind a value. -/
def valueEnds : List Char := [' ', '\t', '\n', '\r', '#', ',', ']', '\x7d']

/-- Whether a value ends in front of a text.  No digit stands behind a single space, because a date
would go on there with its time. -/
structure EndsValue (s : List Char) : Prop where
  head : ∀ c ∈ s.head?, c ∈ valueEnds
  space : ∀ c more, s = ' ' :: c :: more → Text.isDecimal c = false

/-- What no end of a value is does not stand behind a value. -/
theorem EndsValue.head_ne {s : List Char} (h : EndsValue s) {c : Char} (hc : c ∉ valueEnds) :
    s.head? ≠ some c :=
  fun heq => hc (h.head c heq)

/-- A value ends where the text ends. -/
theorem endsValue_nil : EndsValue [] := ⟨nofun, nofun⟩

/-- A value ends in front of every end of a value but a space. -/
theorem endsValue_cons {c : Char} (h : c ∈ valueEnds) (hspace : c ≠ ' ') (s : List Char) :
    EndsValue (c :: s) := by
  constructor
  · intro d hd
    obtain rfl : c = d := Option.some.inj hd
    exact h
  · rintro d more heq
    exact absurd (List.cons.inj heq).1 hspace

/-- Whether digits end in front of a text: with the end of a value, with a decimal point, or with an
exponent. -/
def EndsDigits (s : List Char) : Prop :=
  ∀ c ∈ s.head?, c ∈ '.' :: 'e' :: 'E' :: valueEnds

/-- Digits end where a value ends. -/
theorem EndsValue.endsDigits {s : List Char} (h : EndsValue s) : EndsDigits s := by
  intro c hc
  exact List.mem_cons_of_mem _ (List.mem_cons_of_mem _ (List.mem_cons_of_mem _ (h.head c hc)))

/-! ## Digits -/

section Digits

variable {isDigit : Char → Bool} {digits t : List Char}

/-- The digits that are spelled are digits. -/
theorem isDigit_of_spellsDigits (h : SpellsDigits isDigit digits t) :
    ∀ d ∈ digits, isDigit d = true := by
  induction h with
  | last hd => simpa using hd
  | cons hd _ ih => exact List.forall_mem_cons.mpr ⟨hd, ih⟩
  | underscore hd _ ih => exact List.forall_mem_cons.mpr ⟨hd, ih⟩

/-- Digits are spelled with a digit first. -/
theorem exists_cons_of_spellsDigits (h : SpellsDigits isDigit digits t) :
    ∃ d more, t = d :: more ∧ isDigit d = true := by
  cases h with
  | last hd => exact ⟨_, _, rfl, hd⟩
  | cons hd _ => exact ⟨_, _, rfl, hd⟩
  | underscore hd _ => exact ⟨_, _, rfl, hd⟩

/-- A digit is read, and those behind it. -/
theorem moreDigits_cons {d : Char} (hd : isDigit d = true) (s : List Char) :
    moreDigits isDigit (d :: s) = (d :: (moreDigits isDigit s).1, (moreDigits isDigit s).2) := by
  rw [moreDigits.eq_def]
  simp only [hd, if_true]

/-- An underscore in front of a digit is skipped. -/
theorem moreDigits_underscore (hunderscore : isDigit '_' = false) {d : Char}
    (hd : isDigit d = true) (s : List Char) :
    moreDigits isDigit ('_' :: d :: s) = moreDigits isDigit (d :: s) := by
  rw [moreDigits_cons hd, moreDigits.eq_def]
  simp only [hunderscore, hd, and_self, if_true, Bool.false_eq_true, if_false]

/-- No digits are read where none stand. -/
theorem moreDigits_eq_nil {s : List Char} (h : ∀ c ∈ s.head?, isDigit c = false ∧ c ≠ '_') :
    moreDigits isDigit s = ([], s) := by
  cases s with
  | nil => rfl
  | cons c s =>
    obtain ⟨hdigit, hunderscore⟩ := h c rfl
    cases s <;> simp [moreDigits, hdigit, hunderscore]

/-- Every spelling of digits is read as the digits, up to where they end. -/
theorem digits?_of_spells (hunderscore : isDigit '_' = false) (h : SpellsDigits isDigit digits t)
    {rest : List Char} (hrest : ∀ c ∈ rest.head?, isDigit c = false ∧ c ≠ '_') :
    digits? isDigit (t ++ rest) = some (digits, rest) := by
  have hmore : moreDigits isDigit (t ++ rest) = (digits, rest) := by
    induction h with
    | last hd => rw [List.singleton_append, moreDigits_cons hd, moreDigits_eq_nil hrest]
    | cons hd _ ih => rw [List.cons_append, moreDigits_cons hd, ih]
    | underscore hd h ih =>
      obtain ⟨e, more, rfl, he⟩ := exists_cons_of_spellsDigits h
      rw [List.cons_append, List.cons_append, List.cons_append, moreDigits_cons hd,
        moreDigits_underscore hunderscore he, ← List.cons_append, ih]
  obtain ⟨d, more, rfl, hd⟩ := exists_cons_of_spellsDigits h
  rw [List.cons_append] at hmore ⊢
  rw [digits?, if_pos hd, ← hmore, moreDigits_cons hd]

end Digits

/-- Nothing is dropped in front of a character that stays. -/
theorem dropWhile_eq_self {p : Char → Bool} {s : List Char} (h : ∀ c ∈ s.head?, p c = false) :
    s.dropWhile p = s := by
  cases s with
  | nil => rfl
  | cons c s => exact List.dropWhile_cons_of_neg (by simp [h c rfl])

/-- Decimal digits end where no digit and no underscore stands. -/
theorem EndsDigits.not_decimal {s : List Char} (h : EndsDigits s) :
    ∀ c ∈ s.head?, Text.isDecimal c = false ∧ c ≠ '_' := by
  have hends : ∀ c ∈ '.' :: 'e' :: 'E' :: valueEnds, Text.isDecimal c = false ∧ c ≠ '_' :=
    List.all_iff_forall_prop.mp rfl
  exact fun c hc => hends c (h c hc)

/-- Decimal digits are read up to where they end. -/
theorem decimals?_of_spells {digits t : List Char} (h : SpellsDigits Text.isDecimal digits t)
    {rest : List Char} (hrest : EndsDigits rest) :
    digits? Text.isDecimal (t ++ rest) = some (digits, rest) :=
  digits?_of_spells (by decide) h hrest.not_decimal

/-- A sign is read in front of anything but another one. -/
theorem sign_of_spells {negative : Bool} {mark : List Char} (h : SpellsSign negative mark)
    {s : List Char} (hplus : s.head? ≠ some '+') (hminus : s.head? ≠ some '-') :
    sign (mark ++ s) = (negative, s) := by
  cases h with
  | none =>
    rw [List.nil_append, sign.eq_def]
    split
    · exact absurd rfl hplus
    · exact absurd rfl hminus
    · rfl
  | plus => rfl
  | minus => rfl

/-- What begins with a decimal digit has no sign. -/
theorem sign_of_digit {negative : Bool} {mark : List Char} (h : SpellsSign negative mark)
    {d : Char} (hd : Text.isDecimal d = true) (s : List Char) :
    sign (mark ++ d :: s) = (negative, d :: s) := by
  refine sign_of_spells h ?_ ?_
  · rintro ⟨⟩
    cases hd
  · rintro ⟨⟩
    cases hd

/-- The digits in front of a decimal point are spelled with a digit first. -/
theorem exists_cons_of_spellsWhole {digits t : List Char} (h : SpellsWhole digits t) :
    ∃ d more, t = d :: more ∧ Text.isDecimal d = true := by
  cases h with
  | zero => exact ⟨_, _, rfl, by decide⟩
  | digits h _ => exact exists_cons_of_spellsDigits h

/-- The digits in front of a decimal point are read as a whole: no other digit follows a zero. -/
theorem wholeDigits?_of_spells {digits t : List Char} (h : SpellsWhole digits t) {rest : List Char}
    (hrest : EndsDigits rest) : wholeDigits? (t ++ rest) = some (digits, rest) := by
  cases h with
  | zero => rfl
  | digits h hzero =>
    have hread := decimals?_of_spells h hrest
    obtain ⟨d, more, rfl, -⟩ := exists_cons_of_spellsDigits h
    rw [List.cons_append] at hread ⊢
    rw [wholeDigits?, hread]
    exact fun _ heq => hzero (congrArg some (List.cons.inj heq).1)

/-! ## Fractions and exponents -/

/-- Every spelling of a fraction is read as its digits. -/
theorem fraction?_of_spells {digits t : List Char} (h : SpellsFraction digits t) {rest : List Char}
    (hpoint : rest.head? ≠ some '.') (hrest : EndsDigits rest) :
    fraction? (t ++ rest) = some (digits, rest) := by
  cases h with
  | none =>
    rw [List.nil_append, fraction?.eq_def]
    split
    · exact absurd rfl hpoint
    · rfl
  | point h => exact decimals?_of_spells h hrest

/-- Every spelling of an exponent is read as its number. -/
theorem exponent?_of_spells {n : Int} {t : List Char} (h : SpellsExponent n t) {rest : List Char}
    (hrest : EndsValue rest) : exponent? (t ++ rest) = some (n, rest) := by
  cases h with
  | none =>
    rw [List.nil_append]
    cases rest with
    | nil => rfl
    | cons c rest =>
      refine if_neg ?_
      rintro (rfl | rfl)
      · exact absurd rfl (hrest.head_ne (c := 'e') (by decide))
      · exact absurd rfl (hrest.head_ne (c := 'E') (by decide))
  | power he hsign h =>
    have hread := decimals?_of_spells h hrest.endsDigits
    obtain ⟨d, t, rfl, hd⟩ := exists_cons_of_spellsDigits h
    rw [List.cons_append, List.append_assoc, exponent?, if_pos he]
    rw [List.cons_append] at hread ⊢
    simp only [sign_of_digit hsign hd, hread]
    rfl

/-! ## Numbers are no date-times -/

/-- Behind a fixed number of digits stands what is left of the text. -/
theorem eq_append_of_fixed? {count n : Nat} {s behind : List Char}
    (h : fixed? count s = some (n, behind)) :
    ∃ run, s = run ++ behind ∧ run.length = count ∧ ∀ c ∈ run, Text.isDecimal c = true := by
  simp only [fixed?] at h
  split at h
  · next hall =>
    obtain ⟨-, rfl⟩ := Prod.mk.inj (Option.some.inj h)
    exact ⟨s.take count, (List.take_append_drop count s).symm, hall.1,
      fun c hc => List.all_eq_true.mp hall.2 c hc⟩
  · cases h

/-- Two digits up to a limit are a fixed number of digits. -/
theorem exists_fixed?_of_twoDigits? {limit : Nat} {s : List Char} {read : Nat × List Char}
    (h : twoDigits? limit s = some read) : fixed? 2 s = some read := by
  unfold twoDigits? at h
  split at h
  · next n rest hfixed =>
    split at h
    · rw [hfixed, h]
    · cases h
  · cases h

/-- A separator of dates and times does not stand behind a fixed number of digits if it does not
stand behind all of them. -/
theorem after?_of_fixed? {count n : Nat} {s behind : List Char} {c : Char}
    (h : fixed? count s = some (n, behind)) (hc : Text.isDecimal c = false)
    (hbehind : (s.dropWhile Text.isDecimal).head? ≠ some c) : after? c behind = none := by
  obtain ⟨run, rfl, -, hrun⟩ := eq_append_of_fixed? h
  cases behind with
  | nil => rfl
  | cons d behind =>
    refine if_neg ?_
    rintro rfl
    rw [List.dropWhile_append_of_pos hrun, List.dropWhile_cons_of_neg (by simp [hc])] at hbehind
    exact hbehind rfl

/-- A text is no date and no time if no dash and no colon stands behind its first digits. -/
theorem dateTime?_eq_none {s : List Char} (hdash : (s.dropWhile Text.isDecimal).head? ≠ some '-')
    (hcolon : (s.dropWhile Text.isDecimal).head? ≠ some ':') : dateTime? s = none := by
  have hdate : date? s = none := by
    unfold date?
    cases hyear : fixed? 4 s with
    | none => rfl
    | some read => simp [after?_of_fixed? hyear (by decide) hdash]
  have htime : time? s = none := by
    unfold time?
    cases hhour : twoDigits? 23 s with
    | none => rfl
    | some read =>
      simp [after?_of_fixed? (exists_fixed?_of_twoDigits? hhour) (by decide) hcolon]
  rw [dateTime?, hdate, htime]

/-- No fixed number of digits stands where none begins. -/
theorem fixed?_eq_none {s : List Char} (h : ∀ c ∈ s.head?, Text.isDecimal c = false) (count : Nat) :
    fixed? (count + 1) s = none := by
  cases hread : fixed? (count + 1) s with
  | none => rfl
  | some read =>
    obtain ⟨run, rfl, hlength, hrun⟩ := eq_append_of_fixed? hread
    match run with
    | [] => cases hlength
    | d :: run =>
      exact absurd (h d rfl) (by simp [hrun d List.mem_cons_self])

/-- No time begins where no digit does. -/
theorem time?_eq_none {s : List Char} (h : ∀ c ∈ s.head?, Text.isDecimal c = false) :
    time? s = none := by
  simp [time?, twoDigits?, fixed?_eq_none h 1]

/-- A text that does not begin with a digit is no date and no time. -/
theorem dateTime?_of_not_decimal {s : List Char} (h : ∀ c ∈ s.head?, Text.isDecimal c = false) :
    dateTime? s = none := by
  have hdate : date? s = none := by simp [date?, fixed?_eq_none h 3]
  rw [dateTime?, hdate, time?_eq_none h]

/-- Behind the first digits of a whole part stands an underscore or what is behind all of them. -/
theorem dropWhile_of_spellsDigits {digits t : List Char}
    (h : SpellsDigits Text.isDecimal digits t) {rest : List Char} (hrest : EndsDigits rest) :
    ((t ++ rest).dropWhile Text.isDecimal).head? ∈ some '_' :: [rest.head?] := by
  induction h with
  | last hd =>
    have hends : rest.dropWhile Text.isDecimal = rest :=
      dropWhile_eq_self fun c hc => (hrest.not_decimal c hc).1
    rw [List.singleton_append, List.dropWhile_cons_of_pos hd, hends]
    exact List.mem_cons_of_mem _ List.mem_cons_self
  | cons hd _ ih =>
    rw [List.cons_append, List.dropWhile_cons_of_pos hd]
    exact ih
  | underscore hd _ _ =>
    rw [List.cons_append, List.dropWhile_cons_of_pos hd, List.cons_append,
      List.dropWhile_cons_of_neg (by decide)]
    exact List.mem_cons_self

section Decimal

variable {negative : Bool} {mark whole w : List Char} (hsign : SpellsSign negative mark)
  (hwhole : SpellsWhole whole w) {rest : List Char} (hrest : EndsDigits rest)
include hsign hwhole hrest

/-- A number is no date and no time. -/
theorem dateTime?_of_spellsWhole : dateTime? (mark ++ (w ++ rest)) = none := by
  cases hsign with
  | plus => exact dateTime?_of_not_decimal fun c hc => by cases hc; decide
  | minus => exact dateTime?_of_not_decimal fun c hc => by cases hc; decide
  | none =>
    -- Behind the first digits stands an underscore, or what stands behind the whole part.
    have hne : ∀ c, c ∉ '_' :: '.' :: 'e' :: 'E' :: valueEnds →
        ((w ++ rest).dropWhile Text.isDecimal).head? ≠ some c := by
      intro c hc heq
      have hdigits : ∃ digits, SpellsDigits Text.isDecimal digits w := by
        cases hwhole with
        | zero => exact ⟨_, .last (by decide)⟩
        | digits h _ => exact ⟨_, h⟩
      obtain ⟨digits, hdigits⟩ := hdigits
      have hmem := dropWhile_of_spellsDigits hdigits hrest
      rw [heq] at hmem
      simp only [List.mem_cons, Option.some.injEq, List.not_mem_nil, or_false] at hmem
      obtain rfl | hhead := hmem
      · exact hc List.mem_cons_self
      · exact hc (List.mem_cons_of_mem _ (hrest c hhead.symm))
    exact dateTime?_eq_none (hne '-' (by decide)) (hne ':' (by decide))

/-- A number in base ten does not begin with a zero and the letter of a base. -/
theorem ne_based_of_spellsWhole {letter : Char} (hletter : letter ∉ '.' :: 'e' :: 'E' :: valueEnds)
    (more : List Char) : mark ++ (w ++ rest) ≠ '0' :: letter :: more := by
  cases hsign with
  | plus => exact fun heq => absurd (List.cons.inj heq).1 (by decide)
  | minus => exact fun heq => absurd (List.cons.inj heq).1 (by decide)
  | none =>
    cases hwhole with
    | zero =>
      intro heq
      have hhead := congrArg List.head? (List.cons.inj heq).2
      exact hletter (hrest letter hhead)
    | digits h hzero =>
      obtain ⟨d, w, rfl, -⟩ := exists_cons_of_spellsDigits h
      exact fun heq => hzero (congrArg some (List.cons.inj heq).1)

/-- A number in base ten is read as such. -/
theorem number?_of_spellsWhole {read : Item × List Char}
    (hread : decimalNumber? (mark ++ (w ++ rest)) = some read) :
    number? (mark ++ (w ++ rest)) = some read := by
  have hnot := fun letter hletter => @ne_based_of_spellsWhole _ _ _ _ hsign hwhole _ hrest letter
    hletter
  unfold number?
  rw [dateTime?_of_spellsWhole hsign hwhole hrest]
  simp only
  split
  · next heq => exact absurd heq (hnot 'x' (by decide) _)
  · next heq => exact absurd heq (hnot 'o' (by decide) _)
  · next heq => exact absurd heq (hnot 'b' (by decide) _)
  · rw [hread]

omit hrest in
/-- The sign in front of digits is read. -/
theorem sign_of_spellsWhole : sign (mark ++ (w ++ rest)) = (negative, w ++ rest) := by
  obtain ⟨d, w, rfl, hd⟩ := exists_cons_of_spellsWhole hwhole
  exact sign_of_digit hsign hd _

end Decimal

/-! ## Integers -/

/-- An integer of 64 bits is one of the format. -/
theorem integer?_eq_some {n : Int} (h : -9223372036854775808 ≤ n ∧ n ≤ 9223372036854775807) :
    integer? n = some (.integer n) := if_pos h

/-- Every spelling of an integer of the format is read as the integer. -/
theorem number?_of_spellsInteger {n : Int} {t : List Char} (h : SpellsInteger n t)
    (hfits : -9223372036854775808 ≤ n ∧ n ≤ 9223372036854775807) {rest : List Char}
    (hrest : EndsValue rest) : number? (t ++ rest) = some (.integer n, rest) := by
  cases h with
  | @decimal negative mark digits t hsign hdigits =>
    have hfraction : fraction? rest = some ([], rest) :=
      fraction?_of_spells .none (hrest.head_ne (by decide)) hrest.endsDigits
    have hexponent : exponent? rest = some (0, rest) := exponent?_of_spells .none hrest
    rw [List.append_assoc]
    refine number?_of_spellsWhole hsign hdigits hrest.endsDigits ?_
    simp only [decimalNumber?, sign_of_spellsWhole hsign hdigits,
      wholeDigits?_of_spells hdigits hrest.endsDigits, hfraction, hexponent, if_true]
    exact congrArg (Option.map (·, rest)) (integer?_eq_some hfits)
  | @based letter base digits t hbase hdigits =>
    have hread : basedInteger? base (t ++ rest) =
        some (.integer (Int.ofNat (valueIn base digits)), rest) := by
      have hends : ∀ c ∈ '_' :: valueEnds, Text.hexValue? c = none :=
        List.all_iff_forall_prop.mp rfl
      have hunderscore : (digitOf? base '_').isSome = false := by
        simp [digitOf?, hends '_' List.mem_cons_self]
      have hbehind : ∀ c ∈ rest.head?, (digitOf? base c).isSome = false ∧ c ≠ '_' := by
        intro c hc
        refine ⟨?_, ?_⟩
        · simp [digitOf?, hends c (List.mem_cons_of_mem _ (hrest.head c hc))]
        · rintro rfl
          exact hrest.head_ne (by decide) hc
      rw [basedInteger?, digits?_of_spells hunderscore hdigits hbehind]
      exact congrArg (Option.map (·, rest)) (integer?_eq_some hfits)
    simp only [baseLetters, List.mem_cons, Prod.mk.injEq, List.not_mem_nil, or_false] at hbase
    obtain ⟨rfl, rfl⟩ | ⟨rfl, rfl⟩ | ⟨rfl, rfl⟩ := hbase
    all_goals
      rw [List.cons_append, List.cons_append, number?,
        dateTime?_eq_none (by simp [Text.isDecimal]) (by simp [Text.isDecimal])]
      exact hread

/-! ## Floats -/

/-- A zero in front of digits does not count. -/
theorem decimalValue_dropWhile_zero (digits : List Char) :
    Text.decimalValue (digits.dropWhile (· = '0')) = Text.decimalValue digits := by
  induction digits with
  | nil => rfl
  | cons d digits ih =>
    by_cases hd : d = '0'
    · subst hd
      rw [List.dropWhile_cons_of_pos (by decide), ih]
      rfl
    · rw [List.dropWhile_cons_of_neg (by simpa using hd)]

/-- Digits denote at least what stands before them, moved by their number. -/
theorem mul_pow_le_ofDigitChars (digits : List Char) (n : Nat) :
    n * Nat.pow 10 digits.length ≤ Nat.ofDigitChars 10 digits n := by
  induction digits generalizing n with
  | nil => exact Nat.le_of_eq (Nat.mul_one n)
  | cons d digits ih =>
    have hmore := ih (10 * n + (d.toNat - '0'.toNat))
    have hsucc : Nat.pow 10 (digits.length + 1) = 10 * Nat.pow 10 digits.length := Nat.pow_succ'
    rw [Nat.ofDigitChars_cons, List.length_cons, hsucc]
    calc n * (10 * Nat.pow 10 digits.length)
        = 10 * n * Nat.pow 10 digits.length := by rw [← Nat.mul_assoc, Nat.mul_comm n 10]
      _ ≤ (10 * n + (d.toNat - '0'.toNat)) * Nat.pow 10 digits.length :=
          Nat.mul_le_mul_right _ (Nat.le_add_right _ _)
      _ ≤ _ := hmore

/-- Digits that begin with another one than zero denote at least a power of ten. -/
theorem pow_le_decimalValue {d : Char} (hd : Text.isDecimal d = true) (hzero : d ≠ '0')
    (digits : List Char) : Nat.pow 10 digits.length ≤ Text.decimalValue (d :: digits) := by
  have hpos : 1 ≤ 10 * 0 + (d.toNat - '0'.toNat) := by
    have hrange : '0'.toNat ≤ d.toNat := by
      simp only [Text.isDecimal, Bool.and_eq_true, decide_eq_true_eq] at hd
      exact hd.1
    have hne : d.toNat ≠ '0'.toNat := fun h => hzero (Char.toNat_inj.mp h)
    omega
  calc Nat.pow 10 digits.length
      = 1 * Nat.pow 10 digits.length := (Nat.one_mul _).symm
    _ ≤ (10 * 0 + (d.toNat - '0'.toNat)) * Nat.pow 10 digits.length := Nat.mul_le_mul_right _ hpos
    _ ≤ _ := mul_pow_le_ofDigitChars digits _

/-- What is small enough is not rounded to infinity. -/
theorem roundsToInfinity_of_isFinite {digits : List Char}
    (hdigits : ∀ d ∈ digits, Text.isDecimal d = true) {exponent : Int}
    (h : IsFinite (Text.decimalValue digits) exponent) :
    roundsToInfinity digits exponent = false := by
  rw [← decimalValue_dropWhile_zero] at h
  simp only [roundsToInfinity]
  generalize hsignificant : digits.dropWhile (· = '0') = significant at h
  cases significant with
  | nil => rfl
  | cons d more =>
    have hd : Text.isDecimal d = true := by
      refine hdigits d ((List.dropWhile_sublist (· = '0')).subset ?_)
      rw [hsignificant]
      exact List.mem_cons_self
    have hzero : d ≠ '0' := by
      have hhead := List.head?_dropWhile_not (· = '0') digits
      rw [hsignificant] at hhead
      simpa using hhead
    -- Both bounds stay variables, because they are too large to be evaluated.
    obtain ⟨bound, hbound, hpower⟩ : ∃ bound, bound = 309 ∧ infinityBound ≤ Nat.pow 10 bound :=
      ⟨309, rfl, by decide +kernel⟩
    rw [IsFinite] at h
    generalize infinityBound = limit at h hpower ⊢
    have hmagnitude : more.length + exponent.toNat < bound + (-exponent).toNat := by
      refine (Nat.pow_lt_pow_iff_right (a := 10) (by decide)).mp ?_
      calc Nat.pow 10 (more.length + exponent.toNat)
          = Nat.pow 10 more.length * Nat.pow 10 exponent.toNat := Nat.pow_add ..
        _ ≤ Text.decimalValue (d :: more) * Nat.pow 10 exponent.toNat :=
            Nat.mul_le_mul_right _ (pow_le_decimalValue hd hzero more)
        _ < limit * Nat.pow 10 (-exponent).toNat := h
        _ ≤ Nat.pow 10 bound * Nat.pow 10 (-exponent).toNat := Nat.mul_le_mul_right _ hpower
        _ = Nat.pow 10 (bound + (-exponent).toNat) := (Nat.pow_add ..).symm
    have hone : Nat.pow 10 0 = 1 := rfl
    have hfits : ¬Int.ofNat (d :: more).length + exponent > 309 := by
      simp only [List.length_cons, Int.ofNat_eq_natCast]
      omega
    rw [List.isEmpty_cons, if_neg Bool.false_ne_true, if_neg hfits]
    split
    · rfl
    · split
      · next hexponent =>
        have hnone : (-exponent).toNat = 0 := by omega
        rw [hnone, hone, Nat.mul_one] at h
        exact decide_eq_false (Nat.not_le.mpr h)
      · next hexponent =>
        have hnone : exponent.toNat = 0 := by omega
        rw [hnone, hone, Nat.mul_one] at h
        exact decide_eq_false (Nat.not_le.mpr h)

/-- A text is what was read between it and what is left. -/
theorem spelling_append (t rest : List Char) : spelling (t ++ rest) rest = String.ofList t := by
  rw [spelling, List.length_append, Nat.add_sub_cancel, List.take_left]

/-- The digits in front of a decimal point are decimal ones. -/
theorem isDecimal_of_spellsWhole {digits t : List Char} (h : SpellsWhole digits t) :
    ∀ d ∈ digits, Text.isDecimal d = true := by
  cases h with
  | zero => exact List.forall_mem_singleton.mpr rfl
  | digits h _ => exact isDigit_of_spellsDigits h

/-- The digits behind a decimal point are decimal ones. -/
theorem isDecimal_of_spellsFraction {digits t : List Char} (h : SpellsFraction digits t) :
    ∀ d ∈ digits, Text.isDecimal d = true := by
  cases h with
  | none => exact nofun
  | point h => exact isDigit_of_spellsDigits h

/-- What begins like a word is read as one. -/
theorem number?_of_letter {c : Char} (hc : c = 'i' ∨ c = 'n') (s : List Char) :
    number? (c :: s) = specialFloat? (c :: s) := by
  have hdateTime : dateTime? (c :: s) = none := by
    refine dateTime?_of_not_decimal ?_
    rintro d ⟨⟩
    rcases hc with rfl | rfl <;> decide
  rw [number?.eq_def, hdateTime]
  rcases hc with rfl | rfl <;> rfl

section Words

variable {negative : Bool} {mark word : List Char} (hsign : SpellsSign negative mark)
  (hword : word = ['i', 'n', 'f'] ∨ word = ['n', 'a', 'n']) (rest : List Char)
include hsign hword

/-- The sign in front of a word is read. -/
theorem sign_of_word : sign (mark ++ word ++ rest) = (negative, word ++ rest) := by
  rw [List.append_assoc]
  refine sign_of_spells hsign ?_ ?_
  · rcases hword with rfl | rfl <;> simp
  · rcases hword with rfl | rfl <;> simp

/-- A word is no number in base ten. -/
theorem decimalNumber?_of_word : decimalNumber? (mark ++ word ++ rest) = none := by
  have hdigits : wholeDigits? (word ++ rest) = none := by rcases hword with rfl | rfl <;> rfl
  simp only [decimalNumber?, sign_of_word hsign hword, hdigits]

/-- The words for infinity and for no number are read. -/
theorem specialFloat?_of_word : specialFloat? (mark ++ word ++ rest) =
    some (.float (String.ofList (mark ++ word)), rest) := by
  rw [specialFloat?, sign_of_word hsign hword, ← spelling_append _ rest]
  rcases hword with rfl | rfl <;> rfl

/-- A word is read as a number, with or without a sign. -/
theorem number?_of_word : number? (mark ++ word ++ rest) =
    some (.float (String.ofList (mark ++ word)), rest) := by
  have hfirst : ∀ c ∈ (mark ++ word ++ rest).head?, c ∈ ['+', '-', 'i', 'n'] := by
    cases hsign <;> rcases hword with rfl | rfl <;> simp
  have hdateTime : dateTime? (mark ++ word ++ rest) = none := by
    refine dateTime?_of_not_decimal fun c hc => ?_
    have hletters : ∀ c ∈ ['+', '-', 'i', 'n'], Text.isDecimal c = false :=
      List.all_iff_forall_prop.mp rfl
    exact hletters c (hfirst c hc)
  have hzero : ∀ s, mark ++ word ++ rest ≠ '0' :: s := by
    intro s heq
    exact absurd (hfirst '0' (by rw [heq]; rfl)) (by decide)
  unfold number?
  rw [hdateTime]
  simp only
  split
  · next heq => exact absurd heq (hzero _)
  · next heq => exact absurd heq (hzero _)
  · next heq => exact absurd heq (hzero _)
  · rw [decimalNumber?_of_word hsign hword, specialFloat?_of_word hsign hword]

end Words

/-- Every spelling of a float is read, where a value ends. -/
theorem number?_of_spellsFloat {t : List Char} (h : SpellsFloat t) {rest : List Char}
    (hrest : EndsValue rest) : number? (t ++ rest) = some (.float (String.ofList t), rest) := by
  cases h with
  | @decimal negative mark whole w fraction f e exponent hsign hwhole hfraction hexponent hfloat
      hfinite =>
    have htext : mark ++ (w ++ (f ++ e)) ++ rest = mark ++ (w ++ (f ++ (e ++ rest))) := by simp
    have hpoint : (e ++ rest).head? ≠ some '.' := by
      cases hexponent with
      | none => exact hrest.head_ne (by decide)
      | power he _ _ => rcases he with rfl | rfl <;> simp
    have hpower : EndsDigits (e ++ rest) := by
      cases hexponent with
      | none => exact hrest.endsDigits
      | power he _ _ =>
        intro c hc
        obtain rfl := Option.some.inj hc
        rcases he with rfl | rfl <;> decide
    have hends : EndsDigits (f ++ (e ++ rest)) := by
      cases hfraction with
      | none => exact hpower
      | point _ =>
        intro c hc
        obtain rfl := Option.some.inj hc
        decide
    -- The reader tells a float from an integer by what is left behind the whole part.
    have hlength : rest.length ≠ (f ++ (e ++ rest)).length := by
      have := List.length_pos_iff.mpr hfloat
      simp only [List.length_append] at this ⊢
      omega
    have hsmall : (!negative && roundsToInfinity (whole ++ fraction)
        (exponent - fraction.length)) = false := by
      cases negative with
      | true => rfl
      | false =>
        refine roundsToInfinity_of_isFinite ?_ (hfinite rfl)
        have hdigits := isDecimal_of_spellsWhole hwhole
        have hmore := isDecimal_of_spellsFraction hfraction
        exact List.forall_mem_append.mpr ⟨hdigits, hmore⟩
    rw [htext]
    refine number?_of_spellsWhole hsign hwhole hends ?_
    simp only [decimalNumber?, sign_of_spellsWhole hsign hwhole,
      wholeDigits?_of_spells hwhole hends, fraction?_of_spells hfraction hpoint hpower,
      exponent?_of_spells hexponent hrest, hlength, if_false, hsmall, Bool.false_eq_true]
    rw [← htext, spelling_append]
  | word hsign hword => exact number?_of_word hsign hword rest

/-! ## Date-times -/

section DateTimes

variable {t rest : List Char}

/-- As many digits as the width says are read as their number. -/
theorem fixed?_of_isNumber {width low high : Nat} (h : IsNumber width low high t)
    (rest : List Char) : fixed? width (t ++ rest) = some (Text.decimalValue t, rest) := by
  have htake : (t ++ rest).take width = t := by rw [← h.length_eq, List.take_left]
  have hdrop : (t ++ rest).drop width = rest := by rw [← h.length_eq, List.drop_left]
  simp only [fixed?, htake, hdrop]
  exact if_pos ⟨h.length_eq, List.all_eq_true.mpr h.isDecimal⟩

/-- Two digits are read as their number, if it is not above a limit. -/
theorem twoDigits?_of_isNumber {low high limit : Nat} (h : IsNumber 2 low high t)
    (hlimit : high ≤ limit) (rest : List Char) :
    twoDigits? limit (t ++ rest) = some (Text.decimalValue t, rest) := by
  simp only [twoDigits?, fixed?_of_isNumber h]
  exact if_pos (Nat.le_trans h.le_high hlimit)

/-- The character that has to stand at the start of a text is read. -/
theorem after?_cons (c : Char) (s : List Char) : after? c (c :: s) = some s := if_pos rfl

/-- No month has more than 31 days. -/
theorem daysInMonth_le (year month : Nat) : daysInMonth year month ≤ 31 := by
  grind [daysInMonth]

/-- Every spelling of a date is read. -/
theorem date?_of_spells (h : SpellsDate t) (rest : List Char) : date? (t ++ rest) = some rest := by
  obtain ⟨hyear, hmonth, hday⟩ := h
  simp only [date?, List.append_assoc, List.cons_append, fixed?_of_isNumber hyear,
    twoDigits?_of_isNumber hmonth (Nat.le_refl 12),
    twoDigits?_of_isNumber hday (daysInMonth_le _ _), after?_cons, Option.bind_eq_bind,
    Option.bind_some]
  exact if_pos ⟨hmonth.low_le, hday.low_le, hday.le_high⟩

/-- The fraction of a second is skipped up to where it ends. -/
theorem skipSecondFraction_append (h : SpellsSecondFraction t) (hpoint : rest.head? ≠ some '.')
    (hrest : ∀ c ∈ rest.head?, Text.isDecimal c = false) :
    skipSecondFraction (t ++ rest) = rest := by
  cases h with
  | none =>
    rw [List.nil_append, skipSecondFraction.eq_def]
    split
    · exact absurd rfl hpoint
    · rfl
  | @point d digits hd hdigits =>
    simp only [List.cons_append, skipSecondFraction, hd, if_true]
    rw [List.dropWhile_append_of_pos hdigits, dropWhile_eq_self hrest]

/-- Every spelling of a time is read. -/
theorem time?_of_spells (h : SpellsTime t) (hpoint : rest.head? ≠ some '.')
    (hrest : ∀ c ∈ rest.head?, Text.isDecimal c = false) : time? (t ++ rest) = some rest := by
  obtain ⟨hhour, hminute, hsecond, hfraction⟩ := h
  simp only [time?, List.append_assoc, List.cons_append,
    twoDigits?_of_isNumber hhour (Nat.le_refl _), twoDigits?_of_isNumber hminute (Nat.le_refl _),
    twoDigits?_of_isNumber hsecond (Nat.le_refl _), after?_cons, Option.bind_eq_bind,
    Option.bind_some, skipSecondFraction_append hfraction hpoint hrest]
  rfl

/-- A time is no date. -/
theorem date?_of_spellsTime (h : SpellsTime t) (rest : List Char) : date? (t ++ rest) = none := by
  obtain ⟨hhour, -, -, -⟩ := h
  rename_i hour minute second fraction
  match hour, hhour.length_eq with
  | [a, b], _ =>
    have hfixed : fixed? 4 ([a, b] ++ ':' :: (minute ++ ':' :: (second ++ fraction)) ++ rest) =
        none := by
      refine if_neg fun hall => ?_
      have := List.all_eq_true.mp hall.2 ':' (by simp)
      cases this
    simp only [date?, hfixed]
    rfl

/-- Every spelling of an offset is read. -/
theorem offset?_of_spells (h : SpellsOffset t) (hrest : EndsValue rest) :
    (offset? (t ++ rest)).getD (t ++ rest) = rest := by
  cases h with
  | none =>
    cases rest with
    | nil => rfl
    | cons c rest =>
      have hne : ∀ d, d ∉ valueEnds → c ≠ d := fun d hd hc =>
        hrest.head_ne hd (congrArg some hc)
      have hnone : offset? (c :: rest) = none := by
        have hplus := hne '+' (by decide)
        have hminus := hne '-' (by decide)
        unfold offset?
        split
        · next heq => exact absurd (List.cons.inj heq).1 (hne 'Z' (by decide))
        · next heq => exact absurd (List.cons.inj heq).1 (hne 'z' (by decide))
        · next heq =>
          obtain ⟨rfl, rfl⟩ := List.cons.inj heq
          exact if_neg fun h => h.elim hplus hminus
        · rfl
      rw [List.nil_append, hnone, Option.getD_none]
  | universal hz => rcases hz with rfl | rfl <;> rfl
  | @hours mark hour minute hmark hhour hminute =>
    have hopen : ∀ s, offset? (mark :: s) = (twoDigits? 23 s).bind fun hour =>
        (after? ':' hour.2).bind fun s => (twoDigits? 59 s).bind fun minute =>
          some minute.2 := by
      rcases hmark with rfl | rfl <;> exact fun _ => rfl
    have hread : offset? (mark :: (hour ++ ':' :: minute) ++ rest) = some rest := by
      simp only [List.cons_append, List.append_assoc, hopen,
        twoDigits?_of_isNumber hhour (Nat.le_refl _),
        twoDigits?_of_isNumber hminute (Nat.le_refl _), after?_cons, Option.bind_some]
    rw [hread, Option.getD_some]

/-- No time stands behind a date where the value ends. -/
theorem skipTimeOfDate_of_endsValue (hrest : EndsValue rest) : skipTimeOfDate rest = rest := by
  cases rest with
  | nil => rfl
  | cons c more =>
    by_cases hspace : c = ' '
    · subst hspace
      -- A single space is the only end of a value that a time could follow.
      have htime : time? more = none := time?_eq_none fun d hd => by
        obtain ⟨more, rfl⟩ := List.head?_eq_some_iff.mp hd
        exact hrest.space d more rfl
      simp only [skipTimeOfDate, htime]
      exact ite_self _
    · have hlarge : c ≠ 'T' := fun hc => hrest.head_ne (c := 'T') (by decide) (congrArg some hc)
      have hsmall : c ≠ 't' := fun hc => hrest.head_ne (c := 't') (by decide) (congrArg some hc)
      exact if_neg (by simp [hspace, hlarge, hsmall])

/-- What is read as a date-time is its text. -/
theorem number?_of_dateTime? (h : dateTime? (t ++ rest) =
    some (.dateTime (spelling (t ++ rest) rest), rest)) :
    number? (t ++ rest) = some (.dateTime (String.ofList t), rest) := by
  rw [number?.eq_def, h, spelling_append]

/-- Every spelling of a date-time is read, where a value ends. -/
theorem number?_of_spellsDateTime (h : SpellsDateTime t) (hrest : EndsValue rest) :
    number? (t ++ rest) = some (.dateTime (String.ofList t), rest) := by
  have hdigit : ∀ c ∈ rest.head?, Text.isDecimal c = false := fun c hc =>
    (hrest.endsDigits.not_decimal c hc).1
  have hpoint := hrest.head_ne (c := '.') (by decide)
  refine number?_of_dateTime? ?_
  cases h with
  | date hdate => simp only [dateTime?, date?_of_spells hdate, skipTimeOfDate_of_endsValue hrest]
  | time htime =>
    simp only [dateTime?, date?_of_spellsTime htime, time?_of_spells htime hpoint hdigit]
  | @both separator date time offset hdate hseparator htime hoffset =>
    have htext : date ++ separator :: (time ++ offset) ++ rest =
        date ++ separator :: (time ++ (offset ++ rest)) := by simp
    have htimeRead : time? (time ++ (offset ++ rest)) = some (offset ++ rest) := by
      refine time?_of_spells htime ?_ ?_
      · cases hoffset with
        | none => exact hpoint
        | universal hz => rcases hz with rfl | rfl <;> simp
        | hours hmark _ _ => rcases hmark with rfl | rfl <;> simp
      · cases hoffset with
        | none => exact hdigit
        | universal hz => rcases hz with rfl | rfl <;> simp <;> decide
        | hours hmark _ _ => rcases hmark with rfl | rfl <;> simp <;> decide
    have hskip : skipTimeOfDate (separator :: (time ++ (offset ++ rest))) = rest := by
      simp only [skipTimeOfDate, if_pos hseparator, htimeRead]
      exact offset?_of_spells hoffset hrest
    rw [htext]
    simp only [dateTime?, date?_of_spells hdate, hskip]

end DateTimes

/-! ## Numbers that are written -/

/-- Decimal digits spell themselves. -/
theorem spellsDigits_self {digits : List Char} (hne : digits ≠ [])
    (h : ∀ d ∈ digits, Text.isDecimal d = true) : SpellsDigits Text.isDecimal digits digits := by
  induction digits with
  | nil => exact absurd rfl hne
  | cons d digits ih =>
    have hd := h d List.mem_cons_self
    cases digits with
    | nil => exact .last hd
    | cons e digits =>
      exact .cons hd (ih (List.cons_ne_nil _ _) fun c hc => h c (List.mem_cons_of_mem _ hc))

/-- The numeral of a number is one of its spellings. -/
theorem spellsInteger_decimal (n : Nat) : SpellsInteger (Int.ofNat n) (Text.decimal n) := by
  have hwhole : SpellsWhole (Text.decimal n) (Text.decimal n) := by
    by_cases hzero : (Text.decimal n).head? = some '0'
    · obtain ⟨digits, hdigits⟩ := List.head?_eq_some_iff.mp hzero
      obtain rfl := Text.eq_zero_of_decimal_eq_cons hdigits
      exact .zero
    · exact .digits
        (spellsDigits_self Nat.toDigits_ne_nil fun _ => Text.isDecimal_of_mem_decimal) hzero
  have hspells := SpellsInteger.decimal .none hwhole
  rwa [Text.decimalValue_decimal] at hspells

end PhasedInduction.Toml
