import PhasedInduction.Json.Basic
import PhasedInduction.Path

/-!
# Artifacts

An artifact is a program representation on disk, known by its path.  A step that
writes a changed copy names it by replacing the extension of the artifact by a
suffix.

Main results:

- Theorem {lit}`Artifact.ofJson?_toJson`: an artifact survives being written and read.
-/

namespace PhasedInduction

/-- A program representation at a path, whose text is Unicode.  Paths of other bytes are no
artifacts here. -/
structure Artifact where
  path : String
deriving DecidableEq, Repr

namespace Artifact

/-- Whether two artifacts have paths with the same steps. -/
def alike (a b : Artifact) : Bool := Path.alike a.path.toList b.path.toList

/-- Whether a file name is a dot followed by an extension and nothing else. -/
def isBareExtension : List Char → Bool
  | '.' :: c :: rest => !(c :: rest).contains '.'
  | _ => false

/-- The path text without its extension.  As many characters as the extension has are taken off
the end of the text, and what is left is cut behind its own file stem.  To count bytes would give
the same, because either cut falls behind the last dot. -/
def withoutExtension (path : Path) : List Char :=
  match path.extension? with
  | some ext => Path.clearExtension (path.text.take (path.text.length - ext.length))
  | none => path.text

/-- The sibling artifact named by a suffix in place of the extension.  A file name
that is only an extension is replaced as a whole, and a name without an extension
gets the suffix appended. -/
def withReplacedExtension (a : Artifact) (suffix : String) : Artifact :=
  let path := Path.ofText a.path.toList
  if (path.fileName?.map isBareExtension).getD false then
    let parent := (path.parent?.map Path.text).getD []
    ⟨String.ofList (Path.below parent suffix.toList)⟩
  else ⟨String.ofList (withoutExtension path ++ suffix.toList)⟩

/-- An artifact as its path. -/
def toJson (a : Artifact) : Json := .string a.path

/-- The artifact of a path. -/
def ofJson? (j : Json) : Option Artifact := j.string?.map Artifact.mk

/-- An artifact survives being written and read. -/
@[simp]
theorem ofJson?_toJson (a : Artifact) : ofJson? a.toJson = some a := rfl

end Artifact

end PhasedInduction
