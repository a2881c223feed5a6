import PhasedInduction.Proofs.TomlValues

/-!
# Documents that are written and read

A document is read statement by statement, whichever way its statements are spelled, and the
statements build one table after another.  A document of sections is one of the spellings of their
statements, and reads back as tables with the settings of the sections, if their names need no
quotes and none stands twice.

Main results:

- Theorem {lit}`statement?_of_spells`: every spelling of a statement is read as the statement.
- Theorem {lit}`parse?_of_spells`: every spelling of a document is read as what its statements
  build.
- Theorem {lit}`build_tables`: what assignments and tables build.
- Theorem {lit}`exists_spellsDocument`: statements have a document if each of them has a spelling.
- Theorem {lit}`parse?_print?`: what a written document denotes.
-/

namespace PhasedInduction.Toml

/-! ## Ends of lines -/

/-- Where a line ends: with the text, or in front of the rest of the text. -/
inductive EndsLine : List Char → List Char → Prop
  | text : EndsLine [] []
  | newline {n more : List Char} (hn : IsNewline n) : EndsLine (n ++ more) more

/-- A value ends where a line does. -/
theorem EndsLine.endsValue {s more : List Char} (h : EndsLine s more) : EndsValue s := by
  cases h with
  | text => exact endsValue_nil
  | newline hn => cases hn <;> exact endsValue_cons (by decide) (by decide) _

/-- The end of a line is read. -/
theorem EndsLine.lineEnd?_eq {s more : List Char} (h : EndsLine s more) :
    lineEnd? s = some more := by
  cases h with
  | text => rfl
  | newline hn => cases hn <;> rfl

/-- The end of a line is read behind a comment. -/
theorem lineEnd?_comment {comment s more : List Char} (hcomment : IsComment comment)
    (h : EndsLine s more) : lineEnd? (comment ++ s) = some more := by
  obtain ⟨hbody⟩ := hcomment
  rename_i body
  have hskip : skipSpaces ('#' :: (body ++ s)) = '#' :: (body ++ s) :=
    skipSpaces_cons (by decide) _
  have hdrop : (body ++ s).dropWhile isPlain = s := by
    cases h with
    | text => rw [List.dropWhile_append_of_pos hbody]; rfl
    | newline hn => exact dropWhile_comment hbody hn _
  rw [List.cons_append, lineEnd?, hskip]
  simp only [hdrop]
  cases h with
  | text => rfl
  | newline hn => cases hn <;> rfl

/-- The end of a line is read behind blanks and a comment. -/
theorem lineEnd?_of_lineTail {tail s more : List Char} (htail : IsLineTail tail)
    (h : EndsLine s more) : lineEnd? (tail ++ s) = some more := by
  have hskip : ∀ {blank s : List Char}, IsBlank blank →
      lineEnd? (blank ++ s) = lineEnd? s := by
    intro blank s hblank
    simp only [lineEnd?, skipSpaces_append hblank]
  cases htail with
  | blank hblank => rw [hskip hblank, h.lineEnd?_eq]
  | comment hblank hcomment => rw [List.append_assoc, hskip hblank, lineEnd?_comment hcomment h]

/-- A value ends in front of the rest of its line. -/
theorem endsValue_of_lineTail {tail s more : List Char} (htail : IsLineTail tail)
    (h : EndsLine s more) : EndsValue (tail ++ s) := by
  cases htail with
  | blank hblank => exact h.endsValue.trivia_append hblank.isTrivia
  | comment hblank hcomment =>
    cases hcomment
    rw [List.append_assoc]
    exact (endsValue_cons (by decide) (by decide) _).trivia_append hblank.isTrivia

/-! ## Statements -/

/-- A statement that does not begin with a bracket assigns a value to a key. -/
theorem statement?_of_key? {s path key rest item behind more}
    (hs : s.head? ≠ some '[') (hkey : key? s = some (path, key, '=' :: rest))
    (hvalue : value? (rest.length + 1) 0 (skipSpaces rest) = some (item, behind))
    (hend : lineEnd? behind = some more) :
    statement? s = some (.assign path key item, more) := by
  unfold statement?
  split
  · exact absurd rfl hs
  · exact absurd rfl hs
  · simp only [hkey, hvalue, hend, Option.map_some]

/-- A statement that begins with one bracket is the header of a table. -/
theorem statement?_of_header {s : List Char} (hs : s.head? ≠ some '[') :
    statement? ('[' :: s) = header? [']'] .header s := by
  unfold statement?
  split
  · next heq =>
    obtain rfl := (List.cons.inj heq).2
    exact absurd rfl hs
  · next heq => rw [(List.cons.inj heq).2]
  · next hnot => exact absurd rfl (hnot s)

/-- A key does not begin with a bracket. -/
theorem head?_of_spellsKey {names : List String} {k : List Char} (h : SpellsKey names k)
    (rest : List Char) : (k ++ rest).head? ≠ some '[' := by
  obtain ⟨before, c, more, rfl, hbefore, hc, -⟩ := exists_append_of_spellsKey h
  cases before with
  | nil =>
    rintro ⟨⟩
    cases hc
  | cons d before =>
    have hd := hbefore d List.mem_cons_self
    rintro ⟨⟩
    cases hd

/-- Every spelling of a header is read, with what closes it. -/
theorem header?_of_spells {path : List String} {k closing rest more : List Char}
    {make : List String → Statement} (hkey : SpellsKey path k)
    (hparts : path.length < nestingLimit) (hclosing : closing.head? = some ']')
    (hend : lineEnd? rest = some more) :
    header? closing make (k ++ (closing ++ rest)) = some (make path, more) := by
  have hne : path ≠ [] := by
    rintro rfl
    cases hkey
  obtain ⟨path, key, rfl⟩ : ∃ before last, path = before ++ [last] :=
    ⟨path.dropLast, path.getLast hne, (List.dropLast_concat_getLast hne).symm⟩
  have hends : EndsKey (closing ++ rest) := by
    obtain ⟨more, rfl⟩ := List.head?_eq_some_iff.mp hclosing
    exact .inr rfl
  have hread := key?_of_spells hkey (by simpa using hparts) hends
  have hword : afterWord? closing (closing ++ rest) = some rest := by
    have hprefix : closing.isPrefixOf (closing ++ rest) = true :=
      List.isPrefixOf_iff_prefix.mpr (List.prefix_append _ _)
    rw [afterWord?, if_pos hprefix, List.drop_left]
  simp only [header?, hread, hword, Option.bind_some, hend]

section Line

variable {statement : Statement} {t tail s more : List Char}
  (h : SpellsStatement statement t) (htail : IsLineTail tail) (hends : EndsLine s more)
include h

/-- A statement begins with no comment and no line end, when the blanks in front of it are
skipped. -/
theorem exists_cons_skipSpaces_statement (rest : List Char) :
    ∃ c more, skipSpaces (t ++ rest) = c :: more ∧ c ≠ '#' ∧ c ≠ '\n' ∧ c ≠ '\r' := by
  cases h with
  | assign hkey _ _ _ _ =>
    obtain ⟨c, more, hskip, hc⟩ := exists_cons_skipSpaces_key hkey _
    rw [List.append_assoc]
    refine ⟨c, more, hskip, ?_, ?_, ?_⟩ <;> rintro rfl <;> cases hc
  | header _ _ => exact ⟨'[', _, skipSpaces_cons (by decide) _, by decide, by decide, by decide⟩
  | element _ _ => exact ⟨'[', _, skipSpaces_cons (by decide) _, by decide, by decide, by decide⟩

omit h in
/-- A statement is not spelled as an empty text. -/
theorem length_pos_of_spellsStatement (h : SpellsStatement statement t) : 0 < t.length := by
  cases h <;> simp only [List.length_append, List.length_cons] <;> omega

include htail hends

/-- Every spelling of a statement is read as the statement, with the rest of its line. -/
theorem statement?_of_spells :
    statement? (skipSpaces (t ++ (tail ++ s))) = some (statement, more) := by
  have hend := lineEnd?_of_lineTail htail hends
  cases h with
  | @assign path key height item k before t hkey hparts hbefore hitem hheight =>
    have hlength : t.length < (before ++ (t ++ (tail ++ s))).length + 1 := by
      simp only [List.length_append]
      omega
    have hvalue := value?_of_spells hitem hlength (show 0 + height < nestingLimit by omega)
      (endsValue_of_lineTail htail hends)
    have hstart : skipSpaces (before ++ (t ++ (tail ++ s))) = t ++ (tail ++ s) := by
      rw [skipSpaces_append hbefore, skipSpaces_of_value? hvalue]
    simp only [List.append_assoc, List.cons_append]
    refine statement?_of_key? ?_ (key?_skipSpaces hkey hparts (.inl rfl)) ?_ hend
    · obtain ⟨c, more, hskip, hc⟩ := exists_cons_skipSpaces_key hkey
        ('=' :: (before ++ (t ++ (tail ++ s))))
      rw [hskip]
      rintro ⟨⟩
      cases hc
    · rw [hstart, hvalue]
  | @header path k hkey hparts =>
    have htext : skipSpaces ('[' :: (k ++ [']']) ++ (tail ++ s)) =
        '[' :: (k ++ ([']'] ++ (tail ++ s))) := by
      rw [List.cons_append, skipSpaces_cons (by decide), List.append_assoc]
    rw [htext, statement?_of_header (head?_of_spellsKey hkey _),
      header?_of_spells hkey hparts rfl hend]
  | @element path k hkey hparts =>
    have htext : skipSpaces ('[' :: '[' :: (k ++ [']', ']']) ++ (tail ++ s)) =
        '[' :: '[' :: (k ++ ([']', ']'] ++ (tail ++ s))) := by
      rw [List.cons_append, skipSpaces_cons (by decide), List.cons_append, List.append_assoc]
    rw [htext, statement?]
    exact header?_of_spells hkey hparts rfl hend

end Line

/-! ## Documents -/

/-- The statements of a text are those behind the blanks in front of it. -/
theorem statements?_append {blank : List Char} (hblank : IsBlank blank) (budget : Nat)
    (s : List Char) : statements? budget (blank ++ s) = statements? budget s := by
  cases budget with
  | zero => rfl
  | succ budget =>
    rw [statements?.eq_def, statements?.eq_def (budget + 1) s]
    simp only [skipSpaces_append hblank]

/-- What begins with a statement is read as that statement and those behind it. -/
theorem statements?_of_statement? {s rest : List Char} {statement : Statement} {c : Char}
    {more : List Char} (hskip : skipSpaces s = c :: more)
    (hc : c ≠ '#' ∧ c ≠ '\n' ∧ c ≠ '\r')
    (hstatement : statement? (skipSpaces s) = some (statement, rest)) (budget : Nat) :
    statements? (budget + 1) s = (statements? budget rest).map (statement :: ·) := by
  obtain ⟨hcomment, hn, hr⟩ := hc
  rw [hskip] at hstatement
  rw [statements?]
  simp only [hskip]
  split
  · next heq => cases heq
  · next heq => exact absurd (List.cons.inj heq).1 hcomment
  · simp only [newline?_cons_of_ne hn hr, hstatement]

/-- A line without a statement is skipped. -/
theorem statements?_of_lineTail {tail n more : List Char} (htail : IsLineTail tail)
    (hn : IsNewline n) (budget : Nat) :
    statements? (budget + 1) (tail ++ (n ++ more)) = statements? budget more := by
  cases htail with
  | blank hblank =>
    rw [statements?_append hblank]
    cases hn <;> rfl
  | comment hblank hcomment =>
    have hline : EndsLine (n ++ more) more := .newline hn
    have hend := lineEnd?_comment hcomment hline
    rw [List.append_assoc, statements?_append hblank]
    cases hcomment
    rw [List.cons_append] at hend ⊢
    rw [statements?, skipSpaces_cons (by decide)]
    simp only [hend, Option.bind_some]

/-- The last line may be without a statement. -/
theorem statements?_of_lastTail {tail : List Char} (htail : IsLineTail tail) {budget : Nat}
    (hbudget : tail.length < budget) : statements? budget tail = some [] := by
  obtain ⟨budget, rfl, hleft⟩ := exists_budget_of_lt hbudget
  cases htail with
  | blank hblank =>
    have hread := statements?_append hblank (budget + 1) []
    rw [List.append_nil] at hread
    rw [hread]
    rfl
  | comment hblank hcomment =>
    have hend := lineEnd?_comment hcomment .text
    rw [statements?_append hblank]
    cases hcomment
    rw [List.append_nil] at hend
    obtain ⟨budget, rfl, -⟩ := exists_budget_of_lt (show 0 < budget by
      simp only [List.length_append, List.length_cons] at hleft
      omega)
    rw [statements?, skipSpaces_cons (by decide)]
    simp only [hend, Option.bind_some]
    rfl

/-- Every spelling of a document is read as its statements. -/
theorem statements?_of_spells {statements : List Statement} {s : List Char}
    (h : SpellsDocument statements s) {budget : Nat} (hbudget : s.length < budget) :
    statements? budget s = some statements := by
  induction h generalizing budget with
  | nil htail => exact statements?_of_lastTail htail hbudget
  | @empty statements tail n more htail hn _ ih =>
    obtain ⟨budget, rfl, hleft⟩ := exists_budget_of_lt hbudget
    have hshorter : more.length < budget := by
      have := hn.length_pos
      simp only [List.length_append] at hleft
      omega
    rw [statements?_of_lineTail htail hn, ih hshorter]
  | @last statement before t tail hbefore hstatement htail =>
    obtain ⟨budget, rfl, hleft⟩ := exists_budget_of_lt hbudget
    obtain ⟨c, more, hskip, hc⟩ := exists_cons_skipSpaces_statement hstatement (tail ++ [])
    have hread := statement?_of_spells hstatement htail .text
    -- The reader takes one more step to find that the text is over.
    obtain ⟨budget, rfl, -⟩ := exists_budget_of_lt (show 0 < budget by
      have := length_pos_of_spellsStatement hstatement
      simp only [List.length_append] at hleft
      omega)
    rw [List.append_nil] at hskip hread
    rw [statements?_append hbefore, statements?_of_statement? hskip hc hread]
    rfl
  | @cons statement statements before t tail n more hbefore hstatement htail hn _ ih =>
    obtain ⟨budget, rfl, hleft⟩ := exists_budget_of_lt hbudget
    have hshorter : more.length < budget := by
      have := hn.length_pos
      simp only [List.length_append] at hleft
      omega
    obtain ⟨c, rest, hskip, hc⟩ :=
      exists_cons_skipSpaces_statement hstatement (tail ++ (n ++ more))
    have hline : EndsLine (n ++ more) more := .newline hn
    have hread := statement?_of_spells hstatement htail hline
    rw [statements?_append hbefore, statements?_of_statement? hskip hc hread, ih hshorter]
    rfl

/-- Nothing is read behind a byte order mark. -/
theorem statements?_mark (budget : Nat) (s : List Char) :
    statements? budget ('\uFEFF' :: s) = none := by
  cases budget with
  | zero => rfl
  | succ budget =>
    have hskip : skipSpaces ('\uFEFF' :: s) = '\uFEFF' :: s := skipSpaces_cons (by decide) s
    have hline := @newline?_cons_of_ne '\uFEFF' (by decide) (by decide) s
    have hkey : key? ('\uFEFF' :: s) = none := by
      simp [key?, keyParts?, hskip, keyPart?, isBareKey]
    rw [statements?]
    simp [hskip, hline, statement?, hkey]

/-- Every spelling of a document is read as what its statements build. -/
theorem parse?_of_spells {statements : List Statement} {text : String}
    (h : SpellsDocument statements text.toList) : parse? text = build statements := by
  have hread := statements?_of_spells h (Nat.lt_succ_self _)
  have hmark : skipMark text.toList = text.toList := by
    unfold skipMark
    split
    · next c rest heq =>
      have hc : c ≠ '\uFEFF' := by
        rintro rfl
        rw [heq, statements?_mark] at hread
        cases hread
      rw [if_neg hc, heq]
    · next heq => exact heq.symm
  simp only [parse?, hmark]
  rw [hread, Option.bind_some]

/-! ## Tables that statements build -/

/-- The assignment of an entry to the table that is open. -/
def assignStatement (entry : String × Item) : Statement := .assign [] entry.1 entry.2

/-- A table with its own header, as statements. -/
def tableStatements (table : String × Entries) : List Statement :=
  .header [table.1] :: table.2.map assignStatement

/-- What a table with its own header adds to the root table. -/
def tableEntry (table : String × Entries) : String × Item :=
  (table.1, .table .explicit table.2)

section LastEntry

variable {before : Entries} {name : String} (hname : name ∉ before.map Prod.fst)
include hname

/-- A name that no entry has is not found. -/
theorem lookup_of_not_mem : before.lookup name = none := by
  refine List.lookup_eq_none_iff.mpr fun entry hentry => ?_
  have hne : name ≠ entry.1 := fun heq => hname (heq ▸ List.mem_map_of_mem hentry)
  simpa using hne

/-- The last entry is found by its name. -/
theorem lookup_append_last (item : Item) :
    (before ++ [(name, item)]).lookup name = some item := by
  simp [List.lookup_append, lookup_of_not_mem hname]

/-- The last entry is set in its place. -/
theorem setEntry_append_last (old item : Item) :
    setEntry name item (before ++ [(name, old)]) = before ++ [(name, item)] := by
  induction before with
  | nil => simp [setEntry]
  | cons entry before ih =>
    obtain ⟨other, value⟩ := entry
    obtain ⟨hne, hlater⟩ : name ≠ other ∧ name ∉ before.map Prod.fst := by simpa using hname
    rw [List.cons_append, setEntry, if_neg hne, ih hlater, List.cons_append]

/-- A header opens a new table behind the entries before it. -/
theorem add_header (opened : List String) :
    Building.add ⟨before, opened⟩ (.header [name]) =
      some ⟨before ++ [(name, .table .explicit [])], [name]⟩ := by
  simp only [Building.add, alongHeaders, openTable, lookup_of_not_mem hname, Option.map_some]

/-- An assignment adds an entry to the table that is open. -/
theorem add_assignStatement {entries : Entries} {entry : String × Item}
    (hkey : entry.1 ∉ entries.map Prod.fst) :
    Building.add ⟨before ++ [(name, .table .explicit entries)], [name]⟩ (assignStatement entry) =
      some ⟨before ++ [(name, .table .explicit (entries ++ [entry]))], [name]⟩ := by
  simp only [Building.add, assignStatement, alongHeaders, inOpened, lookup_append_last hname,
    assign, lookup_of_not_mem hkey, Option.map_some, setEntry_append_last hname]

end LastEntry

/-- An assignment in front of the first header adds an entry to the root table. -/
theorem add_topStatement {entries : Entries} {entry : String × Item}
    (hkey : entry.1 ∉ entries.map Prod.fst) :
    Building.add ⟨entries, []⟩ (assignStatement entry) = some ⟨entries ++ [entry], []⟩ := by
  simp only [Building.add, assignStatement, assign, lookup_of_not_mem hkey, Option.map_some]

/-- Assignments add their entries in order, where each of them adds its own. -/
theorem foldlM_assignStatements {state : Entries → Building}
    (hadd : ∀ {entries : Entries} {entry : String × Item}, entry.1 ∉ entries.map Prod.fst →
      Building.add (state entries) (assignStatement entry) = some (state (entries ++ [entry])))
    {entries more : Entries} (hdistinct : (entries.map Prod.fst ++ more.map Prod.fst).Nodup) :
    (more.map assignStatement).foldlM Building.add (state entries) =
      some (state (entries ++ more)) := by
  induction more generalizing entries with
  | nil => simp
  | cons entry more ih =>
    have hkey : entry.1 ∉ entries.map Prod.fst := by
      intro hmem
      exact (List.nodup_append.mp hdistinct).2.2 _ hmem _ List.mem_cons_self rfl
    have hrest := @ih (entries ++ [entry]) (by simpa using hdistinct)
    rw [List.append_assoc, List.singleton_append] at hrest
    rw [List.map_cons, List.foldlM_cons, hadd hkey]
    exact hrest

/-- Tables of different names are built behind the entries before them. -/
theorem foldlM_tables {before : Entries} {tables : List (String × Entries)} {opened : List String}
    (hinner : ∀ table ∈ tables, (table.2.map Prod.fst).Nodup)
    (hdistinct : (before.map Prod.fst ++ tables.map Prod.fst).Nodup) :
    ((tables.flatMap tableStatements).foldlM Building.add ⟨before, opened⟩).map
        Building.root = some (before ++ tables.map tableEntry) := by
  induction tables generalizing before opened with
  | nil => simp
  | cons table tables ih =>
    have hname : table.1 ∉ before.map Prod.fst := by
      intro hmem
      exact (List.nodup_append.mp hdistinct).2.2 _ hmem _ List.mem_cons_self rfl
    -- The header opens an empty table, which the assignments behind it fill.
    have hentries := @foldlM_assignStatements
      (fun entries => ⟨before ++ [(table.1, .table .explicit entries)], [table.1]⟩)
      (add_assignStatement hname) [] table.2 (by simpa using hinner table List.mem_cons_self)
    have hrest := @ih (before ++ [tableEntry table]) [table.1]
      (fun t ht => hinner t (List.mem_cons_of_mem _ ht)) (by simpa [tableEntry] using hdistinct)
    rw [List.append_assoc, List.singleton_append] at hrest
    have htable : (tableStatements table).foldlM Building.add ⟨before, opened⟩ =
        some ⟨before ++ [tableEntry table], [table.1]⟩ := by
      rw [tableStatements, List.foldlM_cons, add_header hname]
      exact hentries
    rw [List.flatMap_cons, List.foldlM_append, htable]
    exact hrest

/-- Assignments and then tables build their entries in order, if no name stands twice. -/
theorem build_tables {top : Entries} {tables : List (String × Entries)}
    (hinner : ∀ table ∈ tables, (table.2.map Prod.fst).Nodup)
    (hdistinct : (top.map Prod.fst ++ tables.map Prod.fst).Nodup) :
    build (top.map assignStatement ++ tables.flatMap tableStatements) =
      some (top ++ tables.map tableEntry) := by
  have htop := @foldlM_assignStatements (⟨·, []⟩) add_topStatement [] top
    (by simpa using (List.nodup_append.mp hdistinct).1)
  have htables := @foldlM_tables top tables [] hinner hdistinct
  rw [List.nil_append] at htop
  rw [build, List.foldlM_append, htop]
  exact htables

/-! ## Documents of statements -/

/-- Whether an item has a spelling that can be read as a value. -/
def IsWritable (item : Item) : Prop := ∃ height < nestingLimit, ∃ t, Spells height item t

/-- Every name has a spelling as a key. -/
theorem exists_spellsKey (name : String) : ∃ k, SpellsKey [name] k := by
  exact ⟨_, .last isBlank_nil (.basic (spellsBasic_flatMap_escaped name.toList)) isBlank_nil⟩

/-- A key of one part is assigned a value. -/
theorem spellsStatement_assign {key : String} {height : Nat} {item : Item} {k before t : List Char}
    (hkey : SpellsKey [key] k) (hbefore : IsBlank before) (hitem : Spells height item t)
    (hheight : height < nestingLimit) :
    SpellsStatement (assignStatement (key, item)) (k ++ '=' :: (before ++ t)) :=
  @SpellsStatement.assign [] key height item k before t hkey
    (show 0 + 1 < nestingLimit by decide) hbefore hitem hheight

/-- An assignment has a spelling if its item has one. -/
theorem exists_spells_assignStatement {entry : String × Item} (h : IsWritable entry.2) :
    ∃ t, SpellsStatement (assignStatement entry) t := by
  obtain ⟨height, hheight, t, hitem⟩ := h
  obtain ⟨k, hkey⟩ := exists_spellsKey entry.1
  exact ⟨_, spellsStatement_assign hkey isBlank_nil hitem hheight⟩

/-- A table has a spelling if its items have one. -/
theorem exists_spells_tableStatements {table : String × Entries}
    (h : ∀ entry ∈ table.2, IsWritable entry.2) :
    ∀ statement ∈ tableStatements table, ∃ t, SpellsStatement statement t := by
  intro statement hstatement
  rcases List.mem_cons.mp hstatement with rfl | hentry
  · obtain ⟨k, hkey⟩ := exists_spellsKey table.1
    exact ⟨_, .header hkey (show 1 < nestingLimit by decide)⟩
  · obtain ⟨entry, hmem, rfl⟩ := List.mem_map.mp hentry
    exact exists_spells_assignStatement (h entry hmem)

/-- Statements have a document if each of them has a spelling. -/
theorem exists_spellsDocument {statements : List Statement}
    (h : ∀ statement ∈ statements, ∃ t, SpellsStatement statement t) :
    ∃ text : String, SpellsDocument statements text.toList := by
  have hlines : ∃ s, SpellsDocument statements s := by
    induction statements with
    | nil => exact ⟨[], .nil isLineTail_nil⟩
    | cons statement statements ih =>
      obtain ⟨t, ht⟩ := h statement List.mem_cons_self
      obtain ⟨s, hs⟩ := ih fun other hother => h other (List.mem_cons_of_mem _ hother)
      exact ⟨_, .cons isBlank_nil ht isLineTail_nil .feed hs⟩
  obtain ⟨s, hs⟩ := hlines
  exact ⟨String.ofList s, by rwa [String.toList_ofList]⟩

/-! ## Sections that are written -/

/-- Whether a name can be a key without quotes. -/
def IsBare (name : String) : Prop :=
  name.toList ≠ [] ∧ name.toList.all isBareKey = true

instance (name : String) : Decidable (IsBare name) :=
  inferInstanceAs (Decidable (_ ∧ _))

/-- A name without quotes is a spelling of itself as a key, with blanks behind it. -/
theorem IsBare.spellsKey {name : String} (h : IsBare name) {behind : List Char}
    (hbehind : IsBlank behind) : SpellsKey [name] (name.toList ++ behind) :=
  .last isBlank_nil (.bare h.1 (List.all_eq_true.mp h.2)) hbehind

/-- A section has a name and keys that need no quotes, and no key twice. -/
structure Section.WellNamed (s : Section) : Prop where
  bare : IsBare s.name
  keys : ∀ setting ∈ s.settings, IsBare setting.1
  distinct : (s.settings.map Prod.fst).Nodup

/-- What a setting adds to its table. -/
def settingEntry (setting : String × Setting) : String × Item :=
  (setting.1, setting.2.item)

/-- A section as a table. -/
def Section.table (s : Section) : String × Entries :=
  (s.name, s.settings.map settingEntry)

/-- What a section adds to the root table. -/
def Section.entry (s : Section) : String × Item := tableEntry s.table

/-- Lines of settings spell the assignments of the settings. -/
theorem spellsDocument_settings {settings : List (String × Setting)}
    (hkeys : ∀ setting ∈ settings, IsBare setting.1) {lines : List (List Char)}
    (hlines : settings.mapM settingLine? = some lines) {rest : List Char}
    {statements : List Statement} (h : SpellsDocument statements rest) :
    SpellsDocument ((settings.map settingEntry).map assignStatement ++ statements)
      (lines.flatten ++ rest) := by
  induction settings generalizing lines with
  | nil =>
    obtain rfl : [] = lines := by simpa using hlines
    exact h
  | cons setting settings ih =>
    rw [List.mapM_cons] at hlines
    obtain ⟨line, hline, more, hmore, rfl⟩ :
        ∃ line, settingLine? setting = some line ∧
          ∃ more, settings.mapM settingLine? = some more ∧ line :: more = lines := by
      simpa [Option.bind_eq_some_iff] using hlines
    have hrest := ih (fun other hother => hkeys other (List.mem_cons_of_mem _ hother)) hmore
    obtain ⟨value, hvalue, rfl⟩ := Option.map_eq_some_iff.mp hline
    have hspace : IsBlank [' '] := by decide
    have hkey := (hkeys setting List.mem_cons_self).spellsKey hspace
    have hstatement := spellsStatement_assign hkey hspace (spells_text? hvalue) (by decide)
    have hspells := SpellsDocument.cons isBlank_nil hstatement isLineTail_nil .feed hrest
    simpa [assignStatement, settingEntry] using hspells

/-- The text of a section spells its table. -/
theorem spellsDocument_section {s : Section} (hs : s.WellNamed) {text : List Char}
    (htext : s.text? = some text) {rest : List Char} {statements : List Statement}
    (h : SpellsDocument statements rest) :
    SpellsDocument (tableStatements s.table ++ statements) (text ++ rest) := by
  obtain ⟨lines, hlines, rfl⟩ := Option.map_eq_some_iff.mp htext
  have hrest := spellsDocument_settings hs.keys hlines h
  have hheader := SpellsStatement.header (hs.bare.spellsKey isBlank_nil)
    (show 1 < nestingLimit by decide)
  have hspells := SpellsDocument.cons isBlank_nil hheader isLineTail_nil .feed hrest
  simpa [tableStatements, Section.table] using hspells

/-- The text of sections spells their tables. -/
theorem spellsDocument_sections {sections : List Section} (h : ∀ s ∈ sections, s.WellNamed)
    {text : List Char} (htext : sectionsText? sections = some text) :
    SpellsDocument ((sections.map Section.table).flatMap tableStatements) text := by
  have hend : SpellsDocument [] [] := .nil isLineTail_nil
  induction sections generalizing text with
  | nil =>
    obtain rfl : [] = text := Option.some.inj htext
    exact hend
  | cons s sections ih =>
    have hs := h s List.mem_cons_self
    cases sections with
    | nil =>
      have hspells := spellsDocument_section hs htext hend
      simpa using hspells
    | cons t sections =>
      rw [sectionsText?] at htext
      · split at htext
        · next first more hfirst hmore =>
          obtain rfl := Option.some.inj htext
          have hrest := ih (fun s hs => h s (List.mem_cons_of_mem _ hs)) hmore
          have hempty := SpellsDocument.empty isLineTail_nil .feed hrest
          exact spellsDocument_section hs hfirst hempty
        · cases htext
      · exact List.cons_ne_nil t sections

/-- A written document denotes a table for each of its sections, with an entry for each of the
settings. -/
theorem parse?_print? {sections : List Section} (hnamed : ∀ s ∈ sections, s.WellNamed)
    (hdistinct : (sections.map Section.name).Nodup) {text : String}
    (h : print? sections = some text) : parse? text = some (sections.map Section.entry) := by
  obtain ⟨s, hs, rfl⟩ := Option.map_eq_some_iff.mp h
  have hspells := spellsDocument_sections hnamed hs
  have hinner : ∀ table ∈ sections.map Section.table, (table.2.map Prod.fst).Nodup := by
    intro table htable
    obtain ⟨s, hs, rfl⟩ := List.mem_map.mp htable
    have hkeys : (s.settings.map settingEntry).map Prod.fst = s.settings.map Prod.fst := by
      rw [List.map_map]
      rfl
    exact hkeys ▸ (hnamed s hs).distinct
  have hnames : (sections.map Section.table).map Prod.fst = sections.map Section.name := by
    rw [List.map_map]
    rfl
  have hbuild := @build_tables [] (sections.map Section.table) hinner (by
    rwa [List.map_nil, List.nil_append, hnames])
  rw [parse?_of_spells (by rwa [String.toList_ofList])]
  rw [List.map_nil, List.nil_append, List.nil_append, List.map_map] at hbuild
  exact hbuild

/-! ## Documents that cannot be written -/

/-- A setting cannot be written if it is a number above the largest integer. -/
theorem Setting.text?_eq_none_iff (v : Setting) :
    v.text? = none ↔ ∃ n, v = .number n ∧ largestInteger < n := by
  cases v with
  | number n => simp [Setting.text?, numberText?_eq_none_iff]
  | _ => simp [Setting.text?]

/-- Lines cannot be written if one of them cannot. -/
theorem mapM_settingLine?_eq_none_iff (settings : List (String × Setting)) :
    settings.mapM settingLine? = none ↔ ∃ setting ∈ settings, setting.2.text? = none := by
  induction settings with
  | nil => simp
  | cons setting settings ih =>
    rw [List.mapM_cons]
    simp only [List.mem_cons, exists_eq_or_imp, ← ih]
    cases hvalue : setting.2.text? with
    | none => simp [settingLine?, hvalue]
    | some value => cases hmore : settings.mapM settingLine? <;> simp [settingLine?, hvalue]

/-- Sections cannot be written if one of them cannot. -/
theorem sectionsText?_eq_none_iff (sections : List Section) :
    sectionsText? sections = none ↔ ∃ s ∈ sections, s.text? = none := by
  induction sections with
  | nil => simp [sectionsText?]
  | cons s sections ih =>
    simp only [List.mem_cons, exists_eq_or_imp, ← ih]
    cases sections with
    | nil => simp [sectionsText?]
    | cons t sections =>
      cases hfirst : s.text? with
      | none => simp [sectionsText?, hfirst]
      | some first =>
        cases hmore : sectionsText? (t :: sections) <;> simp [sectionsText?, hfirst, hmore]

/-- A document cannot be written exactly if it has a number above the largest integer. -/
theorem print?_eq_none_iff (sections : List Section) :
    print? sections = none ↔ ∃ s ∈ sections, ∃ setting ∈ s.settings,
      ∃ n, setting.2 = .number n ∧ largestInteger < n := by
  simp only [print?, Option.map_eq_none_iff, sectionsText?_eq_none_iff, Section.text?,
    mapM_settingLine?_eq_none_iff, Setting.text?_eq_none_iff]

end PhasedInduction.Toml
