import PhasedInduction.Host.Regex
import PhasedInduction.Host.Utility.Sorting

/-!
# Programs that look for patterns

Showing the lines that match, and editing lines by a script of commands.
-/

namespace PhasedInduction.Host

/-! ## Lines that match -/

/-- What makes a line match. -/
structure LineTest where
  patterns : List Regex
  folded : Bool := false
  inverted : Bool := false
  /-- Whether a match has to be a word by itself. -/
  words : Bool := false
  /-- Whether a match has to be the whole line. -/
  whole : Bool := false
deriving DecidableEq, Repr

/-- Whether a match stands between characters that are not in words. -/
def isWordMatch (m : Regex.Match) : Bool :=
  let inWord := fun c : Char => c.isAlphanum || c = '_'
  !(m.before.getLast?.map inWord).getD false && !(m.after.rest.head?.map inWord).getD false

/-- The matches that count in a line. -/
def LineTest.matches (t : LineTest) (line : List Char) : List Regex.Match :=
  (t.patterns.flatMap fun r => (Regex.findAll t.folded r line).1).filter fun m =>
    (!t.words || isWordMatch m) && (!t.whole || m.text = line)

/-- Whether a line matches. -/
def LineTest.holds (t : LineTest) (line : List Char) : Bool :=
  !(t.matches line).isEmpty != t.inverted

/-- The lines that match, with their numbers. -/
def LineTest.matching (t : LineTest) (lines : List (List Char)) : List (Nat × List Char) :=
  (((List.range lines.length).map (· + 1)).zip lines).filter fun l => t.holds l.2

/-- Show the lines of files that match patterns. -/
def grepProgram (i : Invocation) : Process :=
  let rules : OptionRules :=
    { name := "grep", status := 2
      flags := ['E', 'F', 'G', 'i', 'y', 'v', 'w', 'x', 'c', 'n', 'o', 'q', 's', 'h', 'H', 'l', 'L',
        'a', 'r']
      valued := ['e', 'm']
      long := [("extended-regexp", 'E'), ("fixed-strings", 'F'), ("basic-regexp", 'G'),
        ("ignore-case", 'i'), ("invert-match", 'v'), ("word-regexp", 'w'), ("line-regexp", 'x'),
        ("count", 'c'), ("line-number", 'n'), ("only-matching", 'o'), ("quiet", 'q'),
        ("silent", 'q'), ("no-messages", 's'), ("no-filename", 'h'), ("with-filename", 'H'),
        ("files-with-matches", 'l'), ("regexp", 'e'), ("max-count", 'm')]
      usage := "Usage: grep [OPTION]... PATTERNS [FILE]...\n" }
  rules.run i.arguments fun o =>
    let given := o.options.filterMap fun (c, word) => if c = 'e' then some word else none
    let (given, names) := if given.isEmpty then (o.operands.take 1, o.operands.drop 1)
      else (given, o.operands)
    if given.isEmpty then
      .failing 2 ("Usage: grep [OPTION]... PATTERNS [FILE]...\n" ++
        "Try 'grep --help' for more information.")
    else
      let read := fun s : List Char =>
        if o.has 'F' then Regex.literal s else Regex.ofText (o.has 'E') s
      let test : LineTest :=
        { patterns := (given.flatMap fun w => Text.pieces '\n' w.toList).map read
          folded := o.has 'i' || o.has 'y'
          inverted := o.has 'v'
          words := o.has 'w'
          whole := o.has 'x' }
      let named := (o.has 'H' || 1 < names.length) && !o.has 'h'
      let most := (o.value? 'm').bind fun w => multiplied? w.toList
      let hits := fun (text : ByteText) =>
        let found := test.matching (linesOf text)
        match most with
        | some n => found.take n
        | none => found
      let shown := fun (name text : ByteText) =>
        let name := if name = "-" then "(standard input)" else name
        let lead := if named then name ++ ":" else ""
        let found := hits text
        if o.has 'q' then ""
        else if o.has 'l' then (if found.isEmpty then "" else name ++ "\n")
        else if o.has 'c' then lead ++ toString found.length ++ "\n"
        else
          ByteText.unlines (found.flatMap fun (n, line) =>
            let lead := lead ++ (if o.has 'n' then toString n ++ ":" else "")
            if o.has 'o' then
              if test.inverted then []
              else (test.matches line).filterMap fun m =>
                if m.text.isEmpty then none else some (lead ++ String.ofList m.text)
            else [lead ++ String.ofList line])
      let all := overInputs i names 2 (fun name e => "grep: " ++ name ++ ": " ++ errorText e) shown
      let any := (inputNames names).any fun name =>
        (((openInput i name).toOption).map fun text => !(hits text).isEmpty).getD false
      let status : UInt8 := if all.ending ≠ .exited 0 ∧ ¬(o.has 'q' ∧ any) then 2
        else if any then 0 else 1
      { all with ending := .exited status, stderr := if o.has 's' then "" else all.stderr }

/-! ## Editing lines -/

/-- Which lines an edit is for. -/
inductive EditAddress where
  | line (n : Nat)
  | last
  | fitting (r : Regex)
deriving DecidableEq, Repr

/-- A line with what addresses look at. -/
structure EditLine where
  number : Nat
  isLast : Bool
  text : List Char
deriving DecidableEq, Repr

/-- Whether an address selects a line. -/
def EditAddress.selects (a : EditAddress) (l : EditLine) : Bool :=
  match a with
  | .line n => l.number = n
  | .last => l.isLast
  | .fitting r => (Regex.find? false r l.text).isSome

/-- What an edit does to a line. -/
inductive EditAction where
  /-- Replace matches: all of them, or the one of a number. -/
  | substitute (r : Regex) (by_ : List Char) (all : Bool) (number : Nat) (folded prints : Bool)
  | exchange (pairs : List (Char × Char))
  | print
  | delete
  | quit
  | showNumber
  | addBefore (text : List Char)
  | addAfter (text : List Char)
  | change (text : List Char)
  /-- Keep the line for later, in place of what is kept or behind it. -/
  | keep (behind : Bool)
  /-- Take what is kept, in place of the line or behind it. -/
  | recall (behind : Bool)
  | swap
  /-- Go on with the next line, in place of this one or behind it. -/
  | next (behind : Bool)
  | printFirst
deriving DecidableEq, Repr

/-- An edit with the lines it is for. -/
structure Edit where
  first : Option EditAddress
  last : Option EditAddress
  inverted : Bool
  action : EditAction
deriving DecidableEq, Repr

namespace Edit

/-- The text up to a delimiter that no backslash protects, with the text after it. -/
def upTo (delimiter : Char) : List Char → Option (List Char × List Char)
  | [] => none
  | '\\' :: c :: s =>
    (upTo delimiter s).map fun (text, rest) =>
      (if c = delimiter ∧ delimiter ≠ '\\' then c :: text else '\\' :: c :: text, rest)
  | c :: s =>
    if c = delimiter then some ([], s)
    else (upTo delimiter s).map fun (text, rest) => (c :: text, rest)

/-- An address at the start of a script, with the text after it. -/
def address? (extended : Bool) (s : List Char) : Option (EditAddress × List Char) :=
  match s with
  | '$' :: rest => some (.last, rest)
  | '/' :: rest => (upTo '/' rest).map fun (r, rest) => (.fitting (Regex.ofText extended r), rest)
  | c :: _ =>
    if Text.isDecimal c then
      let digits := s.takeWhile Text.isDecimal
      some (.line (Text.decimalValue digits), s.drop digits.length)
    else none
  | [] => none

/-- The flags of a replacement, with the text after them. -/
def flags (s : List Char) : List Char × List Char :=
  let isFlag := fun c : Char => c = 'g' || c = 'p' || c = 'i' || c = 'I' || Text.isDecimal c
  (s.takeWhile isFlag, s.dropWhile isFlag)

/-- The text of a line that is added, with the text after it. -/
def added (s : List Char) : List Char × List Char :=
  let s := match s.dropWhile (· = ' ') with
    | '\\' :: '\n' :: t => t
    | '\\' :: t => t
    | t => t
  (s.takeWhile (· ≠ '\n'), s.dropWhile (· ≠ '\n'))

/-- An action at the start of a script, with the text after it. -/
def action? (extended : Bool) (s : List Char) : Option (EditAction × List Char) :=
  match s with
  | 's' :: delimiter :: rest => do
    let (pattern, rest) ← upTo delimiter rest
    let (by_, rest) ← upTo delimiter rest
    let (flags, rest) := flags rest
    let number := Text.decimalValue (flags.filter Text.isDecimal)
    return (.substitute (Regex.ofText extended pattern) by_ (flags.contains 'g') (max number 1)
      (flags.contains 'i' || flags.contains 'I') (flags.contains 'p'), rest)
  | 'y' :: delimiter :: rest => do
    let (before, rest) ← upTo delimiter rest
    let (after, rest) ← upTo delimiter rest
    return (.exchange (before.zip after), rest)
  | 'p' :: rest => some (.print, rest)
  | 'd' :: rest => some (.delete, rest)
  | 'q' :: rest => some (.quit, rest)
  | 'h' :: rest => some (.keep false, rest)
  | 'H' :: rest => some (.keep true, rest)
  | 'g' :: rest => some (.recall false, rest)
  | 'G' :: rest => some (.recall true, rest)
  | 'x' :: rest => some (.swap, rest)
  | 'n' :: rest => some (.next false, rest)
  | 'N' :: rest => some (.next true, rest)
  | 'P' :: rest => some (.printFirst, rest)
  | '=' :: rest => some (.showNumber, rest)
  | 'i' :: rest => some (.addBefore (added rest).1, (added rest).2)
  | 'a' :: rest => some (.addAfter (added rest).1, (added rest).2)
  | 'c' :: rest => some (.change (added rest).1, (added rest).2)
  | _ => none

/-- Whether a character stands between edits. -/
def isBetween (c : Char) : Bool := c = ' ' || c = '\t' || c = ';' || c = '\n'

/-- The edits of a script.  Every turn takes a character. -/
def readAll? (extended : Bool) : (budget : Nat) → List Char → Option (List Edit)
  | 0, s => if s.isEmpty then some [] else none
  | budget + 1, s => do
    let s := s.dropWhile isBetween
    if s.isEmpty then return []
    let (first, s) := match address? extended s with
      | some (a, rest) => (some a, rest)
      | none => (none, s)
    let (last, s) ← match s with
      | ',' :: rest => (address? extended rest).map fun (a, rest) => (some a, rest)
      | s => some (none, s)
    let s := s.dropWhile (· = ' ')
    let (inverted, s) := match s with
      | '!' :: rest => (true, rest.dropWhile (· = ' '))
      | s => (false, s)
    let (action, rest) ← action? extended s
    return ⟨first, last, inverted, action⟩ :: (← readAll? extended budget rest)

/-- Whether an edit is for a line, given whether its range is open, and whether the range is
open behind the line. -/
def selects (e : Edit) (isOpen : Bool) (l : EditLine) : Bool × Bool :=
  match e.first, e.last with
  | none, _ => (!e.inverted, false)
  | some a, none => (a.selects l != e.inverted, false)
  | some a, some b =>
    if isOpen then (true != e.inverted, !b.selects l)
    else if a.selects l then
      let closes := match b with
        | .line n => n ≤ l.number
        | .last => l.isLast
        | .fitting _ => false
      (true != e.inverted, !closes)
    else (e.inverted, false)

/-- What stands for a match: an ampersand is the match, and a number one of its groups. -/
def insertion (m : Regex.Match) : List Char → List Char
  | [] => []
  | '\\' :: c :: s =>
    if Text.isDecimal c then
      let text := if c = '0' then m.text else (m.groups.lookup (c.toNat - 48)).getD []
      text ++ insertion m s
    else (if c = 'n' then '\n' else if c = 't' then '\t' else c) :: insertion m s
  | '&' :: s => m.text ++ insertion m s
  | c :: s => c :: insertion m s

end Edit

/-- Editing at work on a line. -/
structure EditWork where
  line : EditLine
  /-- The lines that come later. -/
  later : List (List Char) := []
  /-- What is kept. -/
  kept : List Char := []
  /-- Whether lines are printed on demand only. -/
  isSilent : Bool := false
  printed : List (List Char) := []
  behind : List (List Char) := []
  /-- Whether nothing more is done to the line. -/
  isDone : Bool := false
  isDeleted : Bool := false
  quits : Bool := false
deriving DecidableEq, Repr

/-- Two lines in one. -/
def EditWork.joined (a b : List Char) : List Char := a ++ '\n' :: b

/-- The work with another text of the line. -/
def EditWork.withText (w : EditWork) (text : List Char) : EditWork :=
  { w with line := { w.line with text } }

/-- The work with the next line, or at its end. -/
def EditWork.goOn (w : EditWork) (behind : Bool) : EditWork :=
  match w.later with
  | [] => { w with isDone := true, quits := true }
  | next :: later =>
    let text := if behind then joined w.line.text next else next
    { w with
      line := ⟨w.line.number + 1, later.isEmpty, text⟩
      later
      printed := if behind ∨ w.isSilent then w.printed else w.line.text :: w.printed }

/-- Do an action to a line. -/
def EditWork.apply (w : EditWork) (a : EditAction) : EditWork :=
  match a with
  | .substitute r by_ all number folded prints =>
    let found := Regex.findAll folded r w.line.text
    let text := Regex.replaced (fun n m =>
      if n = number ∨ (all ∧ number ≤ n) then Edit.insertion m by_ else m.text) found
    let hit := number ≤ found.1.length
    { w.withText text with printed := if hit ∧ prints then text :: w.printed else w.printed }
  | .exchange pairs => w.withText (w.line.text.map fun c => (pairs.lookup c).getD c)
  | .print => { w with printed := w.line.text :: w.printed }
  | .delete => { w with isDone := true, isDeleted := true }
  | .quit => { w with isDone := true, quits := true }
  | .showNumber => { w with printed := Text.decimal w.line.number :: w.printed }
  | .addBefore text => { w with printed := text :: w.printed }
  | .addAfter text => { w with behind := text :: w.behind }
  | .change text => { w with printed := text :: w.printed, isDone := true, isDeleted := true }
  | .keep behind => { w with kept := if behind then joined w.kept w.line.text else w.line.text }
  | .recall behind => w.withText (if behind then joined w.line.text w.kept else w.kept)
  | .swap => { w.withText w.kept with kept := w.line.text }
  | .next behind => w.goOn behind
  | .printFirst => { w with printed := w.line.text.takeWhile (· ≠ '\n') :: w.printed }

/-- Do edits to a line, each with whether its range is open; they come back with whether it is
open behind the line. -/
def EditWork.run : List (Edit × Bool) → EditWork → List (Edit × Bool) × EditWork
  | [], w => ([], w)
  | (e, isOpen) :: rest, w =>
    if w.isDone then ((e, isOpen) :: rest, w)
    else
      let (selected, isOpen) := e.selects isOpen w.line
      let (rest, w) := EditWork.run rest (if selected then w.apply e.action else w)
      ((e, isOpen) :: rest, w)

/-- Edit lines in turn, behind one of the number given.  Every turn takes a line. -/
def editLines (silent : Bool) : (budget : Nat) → List (Edit × Bool) → (kept : List Char) →
    (number : Nat) → List (List Char) → List (List Char)
  | 0, _, _, _, _ => []
  | _, _, _, _, [] => []
  | budget + 1, edits, kept, number, line :: later =>
    let line := ⟨number + 1, later.isEmpty, line⟩
    let (edits, w) := EditWork.run edits { line, later, kept, isSilent := silent }
    let own := if silent ∨ w.isDeleted then [] else [w.line.text]
    let here := w.printed.reverse ++ own ++ w.behind.reverse
    if w.quits then here
    else here ++ editLines silent budget edits w.kept w.line.number w.later

/-- Edit the lines of files. -/
def sedProgram (i : Invocation) : Process :=
  let rules : OptionRules :=
    { name := "sed", flags := ['n', 'E', 'r', 's', 'u', 'z'], valued := ['e']
      long := [("quiet", 'n'), ("silent", 'n'), ("regexp-extended", 'E'), ("expression", 'e')] }
  rules.run i.arguments fun o =>
    let given := o.options.filterMap fun (c, word) => if c = 'e' then some word else none
    let (given, names) := if given.isEmpty then (o.operands.take 1, o.operands.drop 1)
      else (given, o.operands)
    let script := Text.joined "\n" given
    match Edit.readAll? (o.has 'E' || o.has 'r') (script.length + 1) script.toList with
    | none => .failing 1 "sed: -e expression #1, char 1: unknown command"
    | some edits =>
      let complaint := fun name (e : FileError) =>
        match e with
        | .isDirectory => "sed: couldn't edit " ++ name ++ ": not a regular file"
        | e => "sed: can't read " ++ name ++ ": " ++ errorText e
      let all := overInputs i names 2 complaint fun _ text => text
      let given := linesOf all.stdout
      let lines := editLines (o.has 'n') given.length (edits.map (·, false)) [] 0 given
      let text := ByteText.unlines (lines.map String.ofList)
      let ended := all.stdout = "" || all.stdout.toList.getLast? = some '\n'
      { all with stdout := if ended then text else String.ofList text.toList.dropLast }

end PhasedInduction.Host
