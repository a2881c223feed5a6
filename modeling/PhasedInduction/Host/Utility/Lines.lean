import PhasedInduction.Host.Device
import PhasedInduction.Host.Utility.Options

/-!
# Programs about lines

Programs that print the files named, or their standard input, as a whole or in part: one after
the other, the first or the last lines, the lines in another order, or how many there are.

Main results:

- Theorem {lit}`flatten_chunks`: the lines of a text with their ends make up the text.
- Theorem {lit}`firstLines_all`: a text has no more lines than characters.
-/

namespace PhasedInduction.Host

/-! ## Lines with their ends -/

/-- The lines of a text, each with the line end that belongs to it. -/
def chunks : List Char → List (List Char)
  | [] => []
  | '\n' :: s => ['\n'] :: chunks s
  | c :: s =>
    match chunks s with
    | [] => [[c]]
    | first :: more => (c :: first) :: more

/-- The lines of a text with their ends make up the text. -/
@[simp]
theorem flatten_chunks (s : List Char) : (chunks s).flatten = s := by
  induction s with
  | nil => rfl
  | cons c s ih =>
    unfold chunks
    split
    · contradiction
    · simp_all
    · next h =>
      simp only [List.cons.injEq] at h
      obtain ⟨rfl, rfl⟩ := h
      split <;> simp_all

theorem length_chunks_le (s : List Char) : (chunks s).length ≤ s.length := by
  induction s with
  | nil => simp [chunks]
  | cons c s ih =>
    unfold chunks
    split
    · contradiction
    · simp_all
    · next h =>
      simp only [List.cons.injEq] at h
      obtain ⟨rfl, rfl⟩ := h
      split
      · simp_all
      · simp_all
        omega

/-- The first lines of a text. -/
def firstLines (n : Nat) (s : List Char) : List Char := ((chunks s).take n).flatten

/-- A text has no more lines than characters. -/
theorem firstLines_all (s : List Char) : firstLines s.length s = s := by
  rw [firstLines, List.take_of_length_le (length_chunks_le s), flatten_chunks]

/-- The last lines of a text. -/
def lastLines (n : Nat) (s : List Char) : List Char :=
  ((chunks s).drop ((chunks s).length - n)).flatten

/-! ## The files of a program -/

/-- What a program finds under a name; a hyphen is its standard input. -/
def openInput (i : Invocation) (name : ByteText) : Except FileError ByteText :=
  if name = "-" then .ok i.input else readFile i.files name

/-- The names of the files, of which there is always one. -/
def inputNames (operands : List ByteText) : List ByteText :=
  if operands.isEmpty then ["-"] else operands

/-- Print what is made of each file, and complain about those that cannot be read. -/
def overInputs (i : Invocation) (operands : List ByteText) (failure : UInt8)
    (complaint : ByteText → FileError → ByteText) (make : ByteText → ByteText → ByteText) :
    Process :=
  let results := (inputNames operands).map fun name => (name, openInput i name)
  { ending := .exited (if results.all fun r => r.2.isOk then 0 else failure)
    stdout := String.join (results.filterMap fun (name, text) => text.toOption.map (make name))
    stderr := .unlines (results.filterMap fun (name, text) =>
      match text with
      | .ok _ => none
      | .error e => some (complaint name e))
    tookInput := (inputNames operands).contains "-" }

/-- A complaint that names the program, the file and the reason. -/
def plainComplaint (program name : ByteText) (e : FileError) : ByteText :=
  program ++ ": " ++ shellName name ++ ": " ++ errorText e

/-- A complaint of the programs that show parts of files. -/
def partComplaint (program name : ByteText) (e : FileError) : ByteText :=
  match e with
  | .isDirectory => program ++ ": error reading " ++ shellQuotedName name ++ ": Is a directory"
  | e => program ++ ": cannot open " ++ shellQuotedName name ++ " for reading: " ++ errorText e

/-! ## Files one after the other -/

/-- Lines with their numbers in front, without numbers for empty lines on demand. -/
def numbered (skipsEmpty : Bool) : Nat → List (List Char) → List (List Char)
  | _, [] => []
  | n, line :: rest =>
    if skipsEmpty ∧ line = ['\n'] then line :: numbered skipsEmpty n rest
    else
      let digits := Format.filled false 6 (Text.decimal n)
      (digits ++ '\t' :: line) :: numbered skipsEmpty (n + 1) rest

/-- Lines without the empty ones that follow an empty one. -/
def squeezed : List (List Char) → List (List Char)
  | a :: b :: rest =>
    if a = ['\n'] ∧ b = ['\n'] then squeezed (b :: rest) else a :: squeezed (b :: rest)
  | lines => lines

/-- A character as it is shown: line ends with a dollar sign, tabs and others that do not print
with a caret. -/
def shownChar (ends tabs others : Bool) (c : Char) : List Char :=
  if c = '\n' then (if ends then ['$', '\n'] else [c])
  else if c = '\t' then (if tabs then ['^', 'I'] else [c])
  else if others ∧ c.toNat < 32 then ['^', Char.ofNat (c.toNat + 64)]
  else if others ∧ c = '\x7f' then ['^', '?']
  else [c]

/-- Print files one after the other. -/
def catProgram (i : Invocation) : Process :=
  let rules : OptionRules :=
    { name := "cat", flags := ['A', 'b', 'e', 'E', 'n', 's', 't', 'T', 'u', 'v']
      long := [("show-all", 'A'), ("number-nonblank", 'b'), ("show-ends", 'E'), ("number", 'n'),
        ("squeeze-blank", 's'), ("show-tabs", 'T'), ("show-nonprinting", 'v')] }
  rules.run i.arguments fun o =>
    let all := overInputs i o.operands 1 (plainComplaint "cat") fun _ text => text
    let lines := chunks all.stdout.toList
    let lines := if o.has 's' then squeezed lines else lines
    let ends := o.has 'E' || o.has 'e' || o.has 'A'
    let tabs := o.has 'T' || o.has 't' || o.has 'A'
    let others := o.has 'v' || o.has 'e' || o.has 't' || o.has 'A'
    let lines := lines.map fun line => line.flatMap (shownChar ends tabs others)
    let lines := if o.has 'b' ∨ o.has 'n' then numbered (o.has 'b') 1 lines else lines
    if i.hasOutput then { all with stdout := String.ofList lines.flatten }
    else .failing 1 "cat: standard output: Bad file descriptor"

/-! ## Parts of files -/

/-- A number with a letter that multiplies it. -/
def multiplied? (digits : List Char) : Option Nat :=
  let number := digits.takeWhile Text.isDecimal
  let unit? := match digits.dropWhile Text.isDecimal with
    | [] => some 1
    | ['b'] => some 512
    | ['k'] | ['K'] => some 1024
    | ['M'] => some (1024 * 1024)
    | _ => none
  if number.isEmpty then none else unit?.map (Text.decimalValue number * ·)

/-- A number of lines or bytes with the sign in front of it. -/
def signedCount? (word : ByteText) : Option (Option Char × Nat) :=
  match word.toList with
  | '-' :: digits => (multiplied? digits).map fun n => (some '-', n)
  | '+' :: digits => (multiplied? digits).map fun n => (some '+', n)
  | digits => (multiplied? digits).map fun n => (none, n)

/-- The words with the old form of a number of lines in the new form. -/
def withoutShortCount (words : List ByteText) : List ByteText :=
  match words with
  | first :: rest =>
    match first.toList with
    | '-' :: c :: digits =>
      if Text.isDecimal c ∧ digits.all Text.isDecimal then
        "-n" :: String.ofList (c :: digits) :: rest
      else words
    | _ => words
  | [] => []

/-- What is printed of each file, with its name in front if there are several. -/
def partsOfInputs (i : Invocation) (program : ByteText) (o : Operands)
    (part : List Char → List Char) : Process :=
  let titled := (o.operands.length > 1 && !o.has 'q') || o.has 'v'
  let first := o.operands.head?
  overInputs i o.operands 1 (partComplaint program) fun name text =>
    let title := if name = "-" then "standard input" else name
    let gap := if some name = first ∨ o.operands.isEmpty then "" else "\n"
    (if titled then gap ++ "==> " ++ title ++ " <==\n" else "") ++
      String.ofList (part text.toList)

/-- The rules of the programs that print parts of files. -/
def partRules (name : ByteText) : OptionRules :=
  { name, flags := ['q', 'v', 'z'], valued := ['c', 'n']
    long := [("bytes", 'c'), ("lines", 'n'), ("quiet", 'q'), ("silent", 'q'), ("verbose", 'v')] }

/-- Print a part of each file; the part depends on a count of lines or bytes with its sign. -/
def partProgram (name : ByteText) (part : Bool → Option Char → Nat → List Char → List Char)
    (i : Invocation) : Process :=
  (partRules name).run (withoutShortCount i.arguments) fun o =>
    let bytes := o.last? ['c', 'n'] = some 'c'
    let word := (o.value? (if bytes then 'c' else 'n')).getD "10"
    match signedCount? word with
    | none =>
      .failing 1 (name ++ ": invalid number of " ++ (if bytes then "bytes" else "lines") ++ ": " ++
        quoted word)
    | some (sign, n) => partsOfInputs i name o (part bytes sign n)

/-- Print the first lines or bytes of files; a negative count leaves out the last ones. -/
def headProgram : Invocation → Process :=
  partProgram "head" fun bytes sign n s =>
    let negative := sign = some '-'
    if bytes then (if negative then s.take (s.length - n) else s.take n)
    else if negative then firstLines ((chunks s).length - n) s
    else firstLines n s

/-- Print the last lines or bytes of files; a count with a plus begins with that one. -/
def tailProgram : Invocation → Process :=
  partProgram "tail" fun bytes sign n s =>
    let fromStart := sign = some '+'
    if bytes then (if fromStart then s.drop (n - 1) else s.drop (s.length - n))
    else if fromStart then ((chunks s).drop (n - 1)).flatten
    else lastLines n s

/-! ## Lines in another order -/

/-- Print the lines of files from the last to the first. -/
def tacProgram (i : Invocation) : Process :=
  let rules : OptionRules :=
    { name := "tac", flags := ['b', 'r'], valued := ['s'],
      long := [("before", 'b'), ("regex", 'r'), ("separator", 's')] }
  rules.run i.arguments fun o =>
    overInputs i o.operands 1
      (fun name e => "tac: " ++ (match e with
        | .isDirectory => shellName name ++ ": read error: Invalid argument"
        | e => "failed to open " ++ shellQuotedName name ++ " for reading: " ++ errorText e))
      fun _ text => String.ofList (chunks text.toList).reverse.flatten

/-- Print the lines of files with their characters from the last to the first. -/
def revProgram (i : Invocation) : Process :=
  let rules : OptionRules := { name := "rev", flags := ['0'], long := [("zero", '0')] }
  rules.run i.arguments fun o =>
    let complaint := fun name e => "rev: cannot open " ++ name ++ ": " ++ errorText e
    overInputs i o.operands 1 complaint fun _ text =>
      let lines := (chunks text.toList).map fun line =>
        let body := line.filter (· ≠ '\n')
        let turned := (ByteText.toText (String.ofList body)).toList.reverse
        (ByteText.ofText (String.ofList turned)).toList ++
          (if line.contains '\n' then ['\n'] else [])
      String.ofList lines.flatten

/-! ## Counting -/

/-- What is counted in a text. -/
structure Counts where
  lines : Nat := 0
  words : Nat := 0
  characters : Nat := 0
  bytes : Nat := 0
  longest : Nat := 0
deriving DecidableEq, Repr

/-- The counts of two texts together. -/
def Counts.add (a b : Counts) : Counts :=
  ⟨a.lines + b.lines, a.words + b.words, a.characters + b.characters, a.bytes + b.bytes,
    max a.longest b.longest⟩

/-- The number of words in a text, given whether one is at work. -/
def countWords (inside : Bool) : List Char → Nat
  | [] => 0
  | c :: s =>
    if Integer.isSpace c then countWords false s
    else (if inside then 0 else 1) + countWords true s

/-- The counts of a text. -/
def Counts.ofText (t : ByteText) : Counts where
  lines := t.toList.count '\n'
  words := countWords false t.toList
  characters := t.toText.length
  bytes := t.length
  longest := (((chunks t.toList).map fun line =>
    (ByteText.toText (String.ofList (line.filter (· ≠ '\n')))).length).max?).getD 0

/-- Count lines, words and bytes of files. -/
def wcProgram (i : Invocation) : Process :=
  let rules : OptionRules :=
    { name := "wc", flags := ['c', 'm', 'l', 'L', 'w']
      long := [("bytes", 'c'), ("chars", 'm'), ("lines", 'l'), ("max-line-length", 'L'),
        ("words", 'w')] }
  rules.run i.arguments fun o =>
    let o := if o.options.isEmpty then { o with options := [('l', ""), ('w', ""), ('c', "")] }
      else o
    let chosen := fun (c : Counts) =>
      let all := [('l', c.lines), ('w', c.words), ('m', c.characters), ('c', c.bytes),
        ('L', c.longest)]
      all.filterMap fun (letter, n) => if o.has letter then some n else none
    let names := inputNames o.operands
    let counts := names.filterMap fun name => (openInput i name).toOption.map Counts.ofText
    let total := counts.foldl Counts.add {}
    let single := names.length = 1 && (chosen {}).length = 1
    let odd := names.any fun name => name = "-" || nodeOf? i.files name = some .directory
    let width := if single then 1 else if o.operands.isEmpty then 7
      else if odd then max 7 (toString total.bytes).length
      else (toString total.bytes).length
    let row := fun (c : Counts) (name : ByteText) =>
      let cells := (chosen c).map fun n =>
        String.ofList (Format.filled false width (Text.decimal n))
      Text.joined " " cells ++ (if name = "" then "" else " " ++ name) ++ "\n"
    let complaint := fun (name : ByteText) e =>
      if name = "" then "wc: invalid zero-length file name" else plainComplaint "wc" name e
    let rows := names.filterMap fun name =>
      match openInput i name with
      | .ok text => some (row (.ofText text) (if o.operands.isEmpty then "" else name))
      | .error .isDirectory => some (row {} name)
      | .error _ => none
    let all := overInputs i o.operands 1 complaint fun _ _ => ""
    { all with stdout := String.join rows ++ (if names.length > 1 then row total "total" else "") }

/-- Print the standard input, and write it to files as well. -/
def teeProgram (i : Invocation) : Process :=
  let rules : OptionRules :=
    { name := "tee", flags := ['a', 'i', 'p']
      long := [("append", 'a'), ("ignore-interrupts", 'i')] }
  rules.run i.arguments fun o =>
    let (files, complaints) := o.operands.foldl (fun (files, complaints) name =>
      match placeOf files name with
      | .error e => (files, complaints ++ [plainComplaint "tee" name e])
      | .ok place =>
        if files.node? place = some .directory then
          (files, complaints ++ [plainComplaint "tee" name .isDirectory])
        else if o.has 'a' then (append files place i.input, complaints)
        else (putBytes files place i.input, complaints)) (i.files, [])
    { ending := .exited (if complaints.isEmpty then 0 else 1)
      stdout := i.input
      stderr := .unlines complaints
      tookInput := true
      files := some files }

end PhasedInduction.Host
