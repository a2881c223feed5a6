import PhasedInduction.Host.Utility.Sorting

/-!
# Programs that change files

Making and removing directories and files, copying, renaming and listing them.

Main results:

- Theorem {lit}`node?_removeTree`: after its removal nothing stands at a place.
-/

namespace PhasedInduction.Host

/-! ## Places and trees -/

/-- Whether a place is below another one. -/
def isBelow (place above : Location) : Bool :=
  above.isPrefixOf place && above.length < place.length

/-- The files without a place and what is below it. -/
def removeTree (files : FileTree) (place : Location) : FileTree :=
  { files with nodes := files.nodes.filter fun (other, _) => !place.isPrefixOf other }

/-- After its removal nothing stands at a place. -/
theorem node?_removeTree (files : FileTree) {place : Location} (h : place ≠ []) :
    (removeTree files place).node? place = none := by
  simp only [FileTree.node?, h, if_false, removeTree]
  induction files.nodes with
  | nil => rfl
  | cons e l ih =>
    obtain ⟨other, node⟩ := e
    simp only [List.filter_cons]
    split
    · next hp =>
      have hne : place ≠ other := by
        intro he
        rw [he, List.isPrefixOf_iff_prefix.2 List.prefix_rfl] at hp
        contradiction
      rw [Rows.lookup_cons, if_neg hne]
      exact ih
    · exact ih

/-- Work on files: the files so far, and the complaints, the last one first. -/
structure TreeWork where
  files : FileTree
  complaints : List ByteText := []
  printed : List ByteText := []
deriving DecidableEq, Repr

namespace TreeWork

/-- Note a complaint. -/
def complain (w : TreeWork) (message : ByteText) : TreeWork :=
  { w with complaints := message :: w.complaints }

/-- The process that the work makes. -/
def process (w : TreeWork) (failure : UInt8) : Process where
  ending := .exited (if w.complaints.isEmpty then 0 else failure)
  stdout := .unlines w.printed.reverse
  stderr := .unlines w.complaints.reverse
  files := some w.files

end TreeWork

/-- Do something for each of the operands of a program, of which there has to be one. -/
def overOperands (i : Invocation) (rules : OptionRules) (missing : ByteText)
    (step : Operands → TreeWork → ByteText → TreeWork) : Process :=
  rules.run i.arguments fun o =>
    if o.operands.isEmpty then
      if o.has 'f' then .silent 0 else hinted rules.name 1 missing
    else (o.operands.foldl (step o) { files := i.files }).process 1

/-! ## Directories -/

/-- Make directories. -/
def mkdirProgram (i : Invocation) : Process :=
  let rules : OptionRules :=
    { name := "mkdir", flags := ['p', 'v'], valued := ['m']
      long := [("parents", 'p'), ("verbose", 'v'), ("mode", 'm')] }
  overOperands i rules "missing operand" fun o w path =>
    let text := path.toText.toList
    let result := if o.has 'p' then FileTree.createDirectories (text.length + 1) w.files text
      else
        match w.files.createDirectory text with
        | .ok files => (.ok (), files)
        | .error e => (.error e, w.files)
    match result with
    | (.ok (), files) => { w with files }
    | (.error e, files) =>
      { w with files }.complain
        ("mkdir: cannot create directory " ++ quoted path ++ ": " ++ errorText e)

/-- Remove directories that are empty. -/
def rmdirProgram (i : Invocation) : Process :=
  let rules : OptionRules :=
    { name := "rmdir", flags := ['p', 'v'], long := [("parents", 'p'), ("verbose", 'v')] }
  overOperands i rules "missing operand" fun _ w path =>
    let failed := fun reason => w.complain
      ("rmdir: failed to remove " ++ shellQuotedName path ++ ": " ++ reason)
    match placeOf w.files path with
    | .error e => failed (errorText e)
    | .ok place =>
      match w.files.node? place with
      | none => failed "No such file or directory"
      | some .directory =>
        if w.files.nodes.any fun e => isBelow e.1 place then failed "Directory not empty"
        else { w with files := removeTree w.files place }
      | some _ => failed "Not a directory"

/-- Remove files, and directories with all that is in them on demand. -/
def rmProgram (i : Invocation) : Process :=
  let rules : OptionRules :=
    { name := "rm", flags := ['f', 'i', 'I', 'r', 'R', 'd', 'v']
      long := [("force", 'f'), ("recursive", 'r'), ("dir", 'd'), ("verbose", 'v')] }
  overOperands i rules "missing operand" fun o w path =>
    let failed := fun reason => w.complain
      ("rm: cannot remove " ++ shellQuotedName path ++ ": " ++ reason)
    match placeOf w.files path with
    | .error e => if o.has 'f' ∧ e = .notFound then w else failed (errorText e)
    | .ok place =>
      match w.files.node? place with
      | none => if o.has 'f' then w else failed "No such file or directory"
      | some .directory =>
        if o.has 'r' ∨ o.has 'R' then { w with files := removeTree w.files place }
        else failed "Is a directory"
      | some _ => { w with files := removeTree w.files place }

/-- Make files that are not there yet. -/
def touchProgram (i : Invocation) : Process :=
  let rules : OptionRules :=
    { name := "touch", flags := ['a', 'c', 'm', 'h'], valued := ['d', 'r', 't']
      long := [("no-create", 'c'), ("date", 'd'), ("reference", 'r')] }
  overOperands i rules "missing file operand" fun o w path =>
    match placeOf w.files path with
    | .error e =>
      w.complain ("touch: cannot touch " ++ shellQuotedName path ++ ": " ++ errorText e)
    | .ok place =>
      if (w.files.node? place).isSome ∨ o.has 'c' then w
      else { w with files := putBytes w.files place "" }

/-! ## Copying and renaming -/

/-- The place that a file goes to: the one of the path, or the one of its name in the
directory there. -/
def targetPlace (files : FileTree) (source target : ByteText) : Except FileError Location :=
  match placeOf files target with
  | .error e => .error e
  | .ok place =>
    if files.node? place = some .directory then
      let name := source.toText.toList.reverse.dropWhile (· = '/') |>.takeWhile (· ≠ '/')
      .ok (place ++ [String.ofList name.reverse])
    else .ok place

/-- The files with what stands at a place of other files, and below it, at a place of these. -/
def copyTree (source : FileTree) (place : Location) (files : FileTree) (target : Location) :
    FileTree :=
  (source.nodes.filter fun e => place.isPrefixOf e.1).foldl
    (fun files (other, node) => files.put (target ++ other.drop place.length) node) files

/-- The sources and the target of a program with two operands or more. -/
def withTarget (i : Invocation) (rules : OptionRules)
    (step : Operands → ByteText → TreeWork → ByteText → TreeWork) : Process :=
  rules.run i.arguments fun o =>
    match o.operands.reverse with
    | [] => hinted rules.name 1 "missing file operand"
    | [one] =>
      hinted rules.name 1 ("missing destination file operand after " ++ shellQuotedName one)
    | target :: sources =>
      if 1 < sources.length ∧ nodeOf? i.files target ≠ some .directory then
        .failing 1
          (rules.name ++ ": target " ++ shellQuotedName target ++ ": No such file or directory")
      else (sources.reverse.foldl (step o target) { files := i.files }).process 1

/-- Copy files, and directories on demand. -/
def cpProgram (i : Invocation) : Process :=
  let rules : OptionRules :=
    { name := "cp", flags := ['a', 'f', 'i', 'n', 'p', 'r', 'R', 'u', 'v']
      long := [("recursive", 'r'), ("force", 'f'), ("archive", 'a')] }
  withTarget i rules fun o target w source =>
    match placeOf w.files source with
    | .error e => w.complain ("cp: cannot stat " ++ shellQuotedName source ++ ": " ++ errorText e)
    | .ok place =>
      match w.files.node? place, targetPlace w.files source target with
      | none, _ =>
        w.complain ("cp: cannot stat " ++ shellQuotedName source ++ ": No such file or directory")
      | some .directory, found =>
        if o.has 'r' ∨ o.has 'R' ∨ o.has 'a' then
          match found with
          | .ok goal => { w with files := copyTree w.files place w.files goal }
          | .error e =>
            w.complain
              ("cp: cannot create directory " ++ shellQuotedName target ++ ": " ++ errorText e)
        else w.complain ("cp: -r not specified; omitting directory " ++ shellQuotedName source)
      | some node, .ok goal => { w with files := w.files.put goal node }
      | some _, .error e =>
        w.complain
          ("cp: cannot create regular file " ++ shellQuotedName target ++ ": " ++ errorText e)

/-- Rename files and directories. -/
def mvProgram (i : Invocation) : Process :=
  let rules : OptionRules :=
    { name := "mv", flags := ['f', 'i', 'n', 'u', 'v'], long := [("force", 'f')] }
  withTarget i rules fun _ target w source =>
    match placeOf w.files source with
    | .error e => w.complain ("mv: cannot stat " ++ shellQuotedName source ++ ": " ++ errorText e)
    | .ok place =>
      match w.files.node? place, targetPlace w.files source target with
      | none, _ =>
        w.complain ("mv: cannot stat " ++ shellQuotedName source ++ ": No such file or directory")
      | some _, .ok goal =>
        { w with files := copyTree w.files place (removeTree w.files place) goal }
      | some _, .error e =>
        w.complain ("mv: cannot move " ++ shellQuotedName source ++ " to " ++
          shellQuotedName target ++ ": " ++ errorText e)

/-! ## Listing -/

/-- The names in a directory in order, hidden ones on demand. -/
def listedNames (files : FileTree) (place : Location) (all almost : Bool) : List ByteText :=
  let names := (namesIn files place).map ByteText.ofText
  let names := if all ∨ almost then names else names.filter fun n => n.toList.head? ≠ some '.'
  (if all then [".", ".."] else []) ++ names.mergeSort fun a b => !decide (b < a)

/-- List files and what is in directories. -/
def lsProgram (i : Invocation) : Process :=
  let rules : OptionRules :=
    { name := "ls", status := 2
      flags := "1aAbBcCdDfFgGhHiklLmnNopqQrRsStuUvxXZ".toList, valued := ['I', 'T', 'w']
      long := [("all", 'a'), ("almost-all", 'A'), ("directory", 'd'), ("reverse", 'r')] }
  rules.run i.arguments fun o =>
    let operands := if o.operands.isEmpty then ["."] else o.operands
    let known := operands.map fun path => (path, (nodeOf? i.files path))
    let missing := known.filterMap fun (path, node) => if node.isNone then some path else none
    let isListed := fun (node : Option Node) => node = some .directory && !o.has 'd'
    let order := fun (l : List ByteText) =>
      let l := l.mergeSort fun a b => !decide (b < a)
      if o.has 'r' then l.reverse else l
    let plain := order (known.filterMap fun (path, node) =>
      if node.isSome ∧ ¬isListed node then some path else none)
    let directories := order (known.filterMap fun (path, node) =>
      if isListed node then some path else none)
    let blocks := directories.map fun path =>
      let place := (placeOf i.files path).toOption.getD []
      let names := listedNames i.files place (o.has 'a') (o.has 'A')
      let names := if o.has 'r' then names.reverse else names
      (if 1 < operands.length then path ++ ":\n" else "") ++ ByteText.unlines names
    let blocks := if plain.isEmpty then blocks else ByteText.unlines plain :: blocks
    { ending := .exited (if missing.isEmpty then 0 else 2)
      stdout := Text.joined "\n" blocks
      stderr := .unlines (missing.map fun path =>
        "ls: cannot access " ++ shellQuotedName path ++ ": No such file or directory") }

end PhasedInduction.Host
