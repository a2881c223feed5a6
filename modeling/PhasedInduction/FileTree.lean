import PhasedInduction.Path
import PhasedInduction.Rows

/-!
# File trees

The files and directories that a program can see, as a value.  A tree maps locations,
which are lists of names from the root, to nodes; the root is always a directory.  Path
texts are followed part by part from the root or from the working directory, and every
part needs a directory to start from.  There are no links.  A directory may be closed, and
then no name in it can be followed; a guarded one takes nothing new, and a guarded file
keeps its content.

Main results:

- Theorem {lit}`FileTree.node?_put`: putting a node changes its own location only.
-/

namespace PhasedInduction

/-- Why a path cannot be followed or used. -/
inductive FileError where
  | notFound
  | permissionDenied
  | alreadyExists
  | notDirectory
  | isDirectory
  | nameTooLong
  | nulCharacter
deriving DecidableEq, Repr

/-- The text shown for a file error. -/
def FileError.message : FileError → String
  | notFound => "No such file or directory (os error 2)"
  | permissionDenied => "Permission denied (os error 13)"
  | alreadyExists => "File exists (os error 17)"
  | notDirectory => "Not a directory (os error 20)"
  | isDirectory => "Is a directory (os error 21)"
  | nameTooLong => "File name too long (os error 36)"
  | nulCharacter => "file name contained an unexpected NUL byte"

/-- What stands at a location. -/
inductive Node where
  | directory
  /-- A file with a text. -/
  | file (content : String)
  /-- A file that cannot be read as a text. -/
  | unreadable
  /-- A file that holds a program of the given name. -/
  | executable (program : String)
deriving DecidableEq, Repr

/-- The names on the way from the root. -/
abbrev Location := List String

/-- The nodes below the root, the working directory, and what is not permitted. -/
structure FileTree where
  nodes : List (Location × Node) := []
  here : Location := []
  /-- The directories that names cannot be followed in. -/
  closed : List Location := []
  /-- The directories in which nothing can be made, and the files that cannot be written. -/
  guarded : List Location := []
deriving DecidableEq, Repr

namespace FileTree

/-! ## Nodes -/

/-- What stands at a location. -/
def node? (t : FileTree) (place : Location) : Option Node :=
  if place = [] then some .directory else t.nodes.lookup place

/-- The nodes with one put at a location. -/
def putNode (place : Location) (node : Node) :
    List (Location × Node) → List (Location × Node)
  | [] => [(place, node)]
  | (other, old) :: rest =>
    if place = other then (other, node) :: rest else (other, old) :: putNode place node rest

/-- The tree with a node put at a location. -/
def put (t : FileTree) (place : Location) (node : Node) : FileTree :=
  { t with nodes := putNode place node t.nodes }

theorem lookup_putNode (place other : Location) (node : Node) (l : List (Location × Node)) :
    (putNode place node l).lookup other = if other = place then some node else l.lookup other := by
  induction l with
  | nil => exact Rows.lookup_cons place other node []
  | cons e l ih =>
    obtain ⟨first, old⟩ := e
    unfold putNode
    split
    · grind [Rows.lookup_cons]
    · grind [Rows.lookup_cons]

/-- Putting a node changes its own location only. -/
theorem node?_put {t : FileTree} {place other : Location} {node : Node} (h : place ≠ []) :
    (t.put place node).node? other = if other = place then some node else t.node? other := by
  by_cases ho : other = []
  · subst ho
    simp [node?, Ne.symm h]
  · simp [node?, ho, put, lookup_putNode]

/-! ## Following paths -/

/-- The longest name of a file, in bytes. -/
def nameLimit : Nat := 255

/-- The longest path, in bytes. -/
def pathLimit : Nat := 4095

/-- Go from a location along one part of a path. -/
def enter (t : FileTree) (place : Location) (part : List Char) : Except FileError Location :=
  match t.node? place with
  | none => .error .notFound
  | some .directory =>
    if part = [] then .ok place
    else if place ∈ t.closed then .error .permissionDenied
    else if Path.isVoid part then .ok place
    else if part = ['.', '.'] then .ok place.dropLast
    else if (String.ofList part).utf8ByteSize > nameLimit then .error .nameTooLong
    else .ok (place ++ [String.ofList part])
  | some _ => .error .notDirectory

/-- The location that a path text leads to; its last part need not be there. -/
def locate (t : FileTree) (path : List Char) : Except FileError Location :=
  if path = [] then .error .notFound
  else if path.contains '\x00' then .error .nulCharacter
  else if (String.ofList path).utf8ByteSize > pathLimit then .error .nameTooLong
  else
    match Text.pieces '/' path with
    | [] :: parts => parts.foldlM t.enter []
    | parts => parts.foldlM t.enter t.here

/-- What a path text leads to. -/
def nodeAt (t : FileTree) (path : List Char) : Except FileError Node :=
  match t.locate path with
  | .error e => .error e
  | .ok place =>
    match t.node? place with
    | some node => .ok node
    | none => .error .notFound

/-- Whether a path text leads to something. -/
def contains (t : FileTree) (path : List Char) : Bool :=
  match t.nodeAt path with
  | .ok _ => true
  | .error _ => false

/-- Whether a path text leads to a directory. -/
def isDirectory (t : FileTree) (path : List Char) : Bool :=
  match t.nodeAt path with
  | .ok .directory => true
  | _ => false

/-- The text of the file that a path text leads to. -/
def read (t : FileTree) (path : List Char) : Except FileError String :=
  match t.nodeAt path with
  | .ok (.file content) => .ok content
  | .ok .directory => .error .isDirectory
  | .ok _ => .error .permissionDenied
  | .error e => .error e

/-! ## Changes -/

/-- A path text without the slashes at its end; a root keeps one. -/
def withoutSlashes (path : List Char) : List Char :=
  match (path.reverse.dropWhile (· = '/')).reverse with
  | [] => path.take 1
  | trimmed => trimmed

/-- Whether nothing may be put at a location: the file there decides, or the directory
around the location where nothing is yet. -/
def refuses (t : FileTree) (place : Location) : Bool :=
  if (t.node? place).isSome then place ∈ t.guarded else place.dropLast ∈ t.guarded

/-- Make a directory where nothing is yet. -/
def createDirectory (t : FileTree) (path : List Char) : Except FileError FileTree :=
  match t.locate (withoutSlashes path) with
  | .error e => .error e
  | .ok place =>
    match t.node? place with
    | some _ => .error .alreadyExists
    | none =>
      if t.refuses place then .error .permissionDenied else .ok (t.put place .directory)

/-- The result of a change and the tree after it; a change that fails may have made
directories before. -/
abbrev Change := Except FileError Unit × FileTree

/-- Make a directory where nothing is yet, or find one there. -/
def ensureDirectory (t : FileTree) (path : List Char) : Change :=
  match t.createDirectory path with
  | .ok t => (.ok (), t)
  | .error e => if t.isDirectory path then (.ok (), t) else (.error e, t)

/-- Make a directory and the directories above it that are missing.  Every parent has a
shorter text, so the length of the text is budget enough. -/
def createDirectories : (budget : Nat) → FileTree → List Char → Change
  | 0, t, _ => (.error .notFound, t)
  | budget + 1, t, path =>
    if path = [] then (.ok (), t)
    else
      match t.createDirectory path with
      | .ok t => (.ok (), t)
      | .error .notFound =>
        match (Path.ofText path).parent? with
        | none => (.error .notFound, t)
        | some parent =>
          match createDirectories budget t parent.text with
          | (.ok (), t) => t.ensureDirectory path
          | failed => failed
      | .error e => if t.isDirectory path then (.ok (), t) else (.error e, t)

/-- Write a file, in place of an earlier content. -/
def write (t : FileTree) (path : List Char) (content : String) : Change :=
  match t.locate (withoutSlashes path) with
  | .error e => (.error e, t)
  | .ok place =>
    if path.getLast? = some '/' ∨ t.node? place = some .directory then (.error .isDirectory, t)
    else if t.refuses place then (.error .permissionDenied, t)
    else (.ok (), t.put place (.file content))

/-- Make the directories above a path that are missing. -/
def createParents (t : FileTree) (path : List Char) : Change :=
  match (Path.ofText path).parent? with
  | none => (.ok (), t)
  | some parent =>
    if parent.text = [] ∨ t.contains parent.text then (.ok (), t)
    else createDirectories (parent.text.length + 1) t parent.text

/-- The tree with a file, or a directory where there is no content, and what is missing
above it. -/
def layOut (t : FileTree) (path : String) (content : Option String) : FileTree :=
  match content with
  | some text => ((t.createParents path.toList).2.write path.toList text).2
  | none => (createDirectories (path.length + 1) t path.toList).2

end FileTree

end PhasedInduction
