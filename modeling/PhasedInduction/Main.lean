import PhasedInduction.CommandLine.Run
import PhasedInduction.Host.Standard

/-!
# The executable

Reads the arguments and the files at the place of the configuration, runs the program on
them, and writes what it printed and the file it made.  Commands are answered by the
standard host.
-/

namespace PhasedInduction.CommandLine

/-- The paths on the way to a path, the path itself last. -/
def pathsTo (path : String) : List String :=
  let parts := Text.pieces '/' path.toList
  (List.range parts.length).map fun i =>
    String.ofList (Text.join '/' (parts.take (i + 1)))

/-- What stands at a path. -/
def nodeOf (path : String) : IO (Option Node) := do
  try
    return some (.file (← IO.FS.readFile path))
  catch
    | .noFileOrDirectory .. => return none
    | .inappropriateType .. => return some .directory
    | _ => return some .unreadable

/-- The tree with what stands on the way to a path. -/
def treeFor (path : String) : IO FileTree := do
  let mut tree := Host.workplace
  for place in pathsTo path do
    match tree.locate place.toList with
    | .ok location =>
      match ← nodeOf place with
      | some node => if location ≠ [] then tree := tree.put location node
      | none => pure ()
    | .error _ => pure ()
  return tree

/-- Where the arguments place the configuration. -/
def configPathOf (arguments : List String) : String :=
  match parse arguments with
  | some (.run (some path) _) => path
  | _ => defaultConfigPath

/-- Write the file at a path if it is new. -/
def writeNew (before after : FileTree) (path : String) : IO Unit := do
  if !before.contains path.toList then
    match after.read path.toList with
    | .ok content =>
      match (Path.ofText path.toList).parent? with
      | some parent => if parent.text ≠ [] then IO.FS.createDirAll (String.ofList parent.text)
      | none => pure ()
      IO.FS.writeFile path content
    | .error _ => pure ()

/-- Whether the surroundings of the program want colours. -/
def wantsColors : IO Bool := do
  match ← IO.getEnv "CLICOLOR_FORCE" with
  | some value => return value ≠ "0"
  | none =>
    if (← IO.getEnv "NO_COLOR").isSome then return false
    else (← IO.getStdout).isTty

/-- Run the program on the files of the machine. -/
def execute (arguments : List String) : IO UInt32 := do
  let path := configPathOf arguments
  let files ← treeFor path
  let report := run { files, answer := Host.start files, style := ⟨← wantsColors⟩ } arguments
  writeNew files report.files path
  IO.print report.stdout
  IO.eprint report.stderr
  return report.exitCode.toUInt32

end PhasedInduction.CommandLine

/-- The entry point of the executable. -/
def main (arguments : List String) : IO UInt32 :=
  PhasedInduction.CommandLine.execute arguments
