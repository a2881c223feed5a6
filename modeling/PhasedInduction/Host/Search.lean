import PhasedInduction.Host.Device

/-!
# Finding programs

A name with a slash is the path of a program; any other name is looked up in the directories
of a search path.

Main results:

- Theorem {lit}`program_of_search`: what is found is the program of one of the directories.
-/

namespace PhasedInduction.Host

/-- The program that a path leads to. -/
def programAt (files : FileTree) (path : String) : Except FileError String :=
  match files.nodeAt path.toList with
  | .ok (.executable program) => .ok program
  | .ok _ => .error .permissionDenied
  | .error e => .error e

/-- The first program of a name in directories, with its path.  If there is none, a hit that is
no program counts more than a miss. -/
def search (files : FileTree) (name : String) (denied : Bool) :
    List String → Except FileError (String × String)
  | [] => .error (if denied then .permissionDenied else .notFound)
  | directory :: rest =>
    match programAt files (directory ++ "/" ++ name) with
    | .ok program => .ok (directory ++ "/" ++ name, program)
    | .error e => search files name (denied || e = .permissionDenied) rest

/-- What is found is the program of one of the directories. -/
theorem program_of_search {files : FileTree} {name path program : String} {denied : Bool}
    {directories : List String} (h : search files name denied directories = .ok (path, program)) :
    ∃ directory ∈ directories, path = directory ++ "/" ++ name ∧
      programAt files path = .ok program := by
  induction directories generalizing denied with
  | nil => simp [search] at h
  | cons directory rest ih =>
    unfold search at h
    split at h
    · next found hp =>
      simp only [Except.ok.injEq, Prod.mk.injEq] at h
      obtain ⟨rfl, rfl⟩ := h
      exact ⟨directory, by simp, rfl, hp⟩
    · obtain ⟨d, hd, h⟩ := ih h
      exact ⟨d, List.mem_cons_of_mem _ hd, h⟩

/-- The program that a name stands for, with its path. -/
def resolve (files : FileTree) (directories : List String) (name : String) :
    Except FileError (String × String) :=
  if name = "" then .error .notFound
  else if name.toList.contains '/' then (programAt files name).map fun program => (name, program)
  else if name.utf8ByteSize > FileTree.nameLimit then .error .nameTooLong
  else search files name false directories

/-- The directories of a search path; an empty part is the working directory. -/
def searchDirectories (path : String) : List String :=
  (Text.pieces ':' path.toList).map fun part =>
    if part.isEmpty then "." else String.ofList part

end PhasedInduction.Host
