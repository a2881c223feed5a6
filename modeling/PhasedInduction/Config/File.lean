import PhasedInduction.Config.Text
import PhasedInduction.FileTree

/-!
# Configuration files

Reading never fails: what is missing, unreadable or no usable configuration counts as
the default.  Writing makes the directories above the file first.

Main results:

- Theorem {lit}`Config.fault?_read`: what is read is always usable.
-/

namespace PhasedInduction.Config

/-- The configuration of a file, or the default. -/
def read (t : FileTree) (path : String) : Config :=
  if t.contains path.toList then
    match t.read path.toList with
    | .ok text => (ofText text).toOption.getD {}
    | .error _ => {}
  else {}

/-- What is read is always usable. -/
theorem fault?_read (t : FileTree) (path : String) : (read t path).fault? = none := by
  unfold read
  split
  · split
    · next text _ =>
      cases h : ofText text with
      | error e => simpa [Except.toOption] using fault?_default
      | ok c => simpa [Except.toOption] using fault?_of_ofText h
    · exact fault?_default
  · exact fault?_default

/-- Write a configuration to a file: the result and the tree afterwards. -/
def write (c : Config) (t : FileTree) (path : String) : Except CampaignError Unit × FileTree :=
  match t.createParents path.toList with
  | (.error e, t) => (.error (.io e.message), t)
  | (.ok (), t) =>
    match c.toText? with
    | none => (.error (.serialization "number out of range"), t)
    | some text =>
      match t.write path.toList text with
      | (.ok (), t) => (.ok (), t)
      | (.error e, t) => (.error (.io e.message), t)

end PhasedInduction.Config
