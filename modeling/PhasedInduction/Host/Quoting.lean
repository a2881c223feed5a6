import PhasedInduction.Host.ByteText

/-!
# Words in messages

How programs show words in their messages.  A word that is only mentioned stands between
quotation marks, and what cannot be shown is written as an escape.  A name that somebody may
want to use in a shell is written as a shell would read it.

Main results:

- Theorem {lit}`flatten_symbols`: the symbols of a byte text make up the text.
- Theorem {lit}`shellName_of_plain`: a name of plain characters is shown as it is.
-/

namespace PhasedInduction.Host

/-! ## Symbols -/

/-- The bytes of a character, or a byte that is part of none. -/
structure Symbol where
  chars : List Char
  /-- Whether it can be shown. -/
  isPrintable : Bool
deriving DecidableEq, Repr

/-- The symbol that a byte text begins with, and how many characters it takes after the
first. -/
def symbolAt (c : Char) (s : List Char) : Symbol × Nat :=
  if c.toNat < 128 then (⟨[c], 32 ≤ c.toNat && c.toNat < 127⟩, 0)
  else
    let (found, rest) := Text.firstChar (ByteText.byteOf c) (s.map ByteText.byteOf)
    let more := s.length - rest.length
    let chars := c :: s.take more
    if ByteText.ofText (String.ofList [found]) = String.ofList chars then
      (⟨chars, 160 ≤ found.toNat⟩, more)
    else (⟨[c], false⟩, 0)

/-- The symbols of a byte text; the first characters may belong to the symbol before. -/
def symbolsFrom : (skip : Nat) → List Char → List Symbol
  | _, [] => []
  | skip + 1, _ :: s => symbolsFrom skip s
  | 0, c :: s => (symbolAt c s).1 :: symbolsFrom (symbolAt c s).2 s

/-- The symbols of a byte text. -/
def symbols (t : ByteText) : List Symbol := symbolsFrom 0 t.toList

theorem chars_symbolAt (c : Char) (s : List Char) :
    (symbolAt c s).1.chars = c :: s.take (symbolAt c s).2 := by
  unfold symbolAt
  split
  · simp
  · dsimp only
    split <;> simp

theorem flatten_symbolsFrom (skip : Nat) (s : List Char) :
    (symbolsFrom skip s).flatMap (·.chars) = s.drop skip := by
  induction s generalizing skip with
  | nil => simp [symbolsFrom]
  | cons c s ih =>
    cases skip with
    | zero => simp [symbolsFrom, ih, chars_symbolAt]
    | succ skip => simp [symbolsFrom, ih]

/-- The symbols of a byte text make up the text. -/
theorem flatten_symbols (t : ByteText) : (symbols t).flatMap (·.chars) = t.toList := by
  simp [symbols, flatten_symbolsFrom]

/-- The escape of a character that cannot be shown. -/
def escapeOf (c : Char) : List Char :=
  match [('\x07', 'a'), ('\x08', 'b'), ('\x0c', 'f'), ('\n', 'n'), ('\r', 'r'), ('\t', 't'),
      ('\x0b', 'v')].lookup c with
  | some letter => ['\\', letter]
  | none =>
    let digit := fun (n : Nat) => Char.ofNat (48 + n % 8)
    ['\\', digit (c.toNat / 64), digit (c.toNat / 8), digit c.toNat]

/-! ## Words that are mentioned -/

/-- A symbol between quotation marks. -/
def Symbol.quoted (s : Symbol) : List Char :=
  if !s.isPrintable then s.chars.flatMap escapeOf
  else if s.chars = ['\\'] ∨ s.chars = (ByteText.ofText "’").toList then '\\' :: s.chars
  else s.chars

/-- A text between the quotation marks of messages. -/
def quoted (text : ByteText) : ByteText :=
  ByteText.ofText "‘" ++ String.ofList ((symbols text).flatMap Symbol.quoted) ++
    ByteText.ofText "’"

/-! ## Names for a shell -/

/-- Whether a character has no meaning of its own in a shell. -/
def isPlain (c : Char) : Bool :=
  c.isAlphanum || "%+,-./:@]_".toList.contains c || 128 ≤ c.toNat

/-- Whether a shell takes a name for something else unless it is quoted. -/
def needsQuotes (s : List Char) : Bool :=
  match s with
  | [] => true
  | ['\x7b'] | ['\x7d'] => true
  | c :: rest =>
    ['#', '~'].contains c ||
      (c :: rest).any fun c => !isPlain c && !(['#', '~', '\x7b', '\x7d'].contains c)

/-- Whether a name may stand between double quotes. -/
def isTame (s : List Char) : Bool :=
  match s with
  | [] => true
  | c :: rest =>
    ('#' = c || '~' = c || c = ' ' || c = '\'' || isPlain c) &&
      rest.all fun c => c = ' ' || c = '\'' || isPlain c

/-- The symbols of a name between single quotes, given whether escapes are at work. -/
def singleQuotedFrom : (escapes : Bool) → List Symbol → List Char
  | _, [] => []
  | escapes, s :: rest =>
    if !s.isPrintable then
      (if escapes then [] else "'$'".toList) ++ s.chars.flatMap escapeOf ++
        singleQuotedFrom true rest
    else if s.chars = ['\''] then "'\\''".toList ++ singleQuotedFrom false rest
    else (if escapes then "''".toList else []) ++ s.chars ++ singleQuotedFrom false rest

/-- A name between the quotes of a shell. -/
def shellQuotedName (name : ByteText) : ByteText :=
  let found := symbols name
  if name.toList.contains '\'' ∧ found.all (·.isPrintable) ∧ isTame name.toList then
    "\"" ++ name ++ "\""
  else "'" ++ String.ofList (singleQuotedFrom false found) ++ "'"

/-- A name between the quotes of a shell, if it needs any. -/
def shellName (name : ByteText) : ByteText :=
  if needsQuotes name.toList ∨ ¬(symbols name).all (·.isPrintable) then shellQuotedName name
  else name

/-- A name of plain characters is shown as it is. -/
theorem shellName_of_plain {name : ByteText} (hn : name ≠ "")
    (h : ∀ c ∈ name.toList, isPlain c = true)
    (hp : (symbols name).all (·.isPrintable) = true) : shellName name = name := by
  have hq : needsQuotes name.toList = false := by
    cases hl : name.toList with
    | nil => exact absurd (String.toList_eq_nil_iff.1 hl) hn
    | cons c rest =>
      rw [hl] at h
      have hc : ∀ d ∈ ['#', '~', '\x7b', '\x7d'], c ≠ d := by
        intro d hd he
        have := h c (by simp)
        subst he
        revert this
        simp only [List.mem_cons, List.not_mem_nil, or_false] at hd
        rcases hd with rfl | rfl | rfl | rfl <;> decide
      unfold needsQuotes
      split
      · contradiction
      · next he => simp_all
      · next he => simp_all
      · next he =>
        simp only [List.cons.injEq] at he
        obtain ⟨rfl, rfl⟩ := he
        have : ∀ d ∈ c :: rest,
            (!isPlain d && !(['#', '~', '\x7b', '\x7d'].contains d)) = false := by
          intro d hd
          simp [h d hd]
        have h' := List.any_eq_false.2 fun d hd => Bool.eq_false_iff.1 (this d hd)
        rw [h']
        simp [hc]
  simp [shellName, hq, hp]

end PhasedInduction.Host
