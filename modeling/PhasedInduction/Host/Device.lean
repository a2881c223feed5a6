import PhasedInduction.Host.Process

/-!
# Files and devices

The files of a host as processes see them.  The devices below {lit}`/dev` hold nothing: what
is written to them is gone, and one of them can be read without end.
-/

namespace PhasedInduction.Host

/-- The places of the devices. -/
def devices : List Location := [["dev", "null"], ["dev", "zero"]]

/-- Whether a place is that of a device. -/
def isDevice (place : Location) : Bool := devices.contains place

/-- How many bytes are taken of a device that has no end. -/
def endless : Nat := 1048576

/-- The place that a path leads to. -/
def placeOf (files : FileTree) (path : ByteText) : Except FileError Location :=
  files.locate path.toText.toList

/-- What a path leads to. -/
def nodeOf? (files : FileTree) (path : ByteText) : Option Node :=
  match files.nodeAt path.toText.toList with
  | .ok node => some node
  | .error _ => none

/-- The bytes of the file at a place. -/
def bytesAt (files : FileTree) (place : Location) : ByteText :=
  if place = ["dev", "zero"] then String.ofList (List.replicate endless '\x00')
  else if isDevice place then ""
  else
    match files.node? place with
    | some (.file content) => .ofText content
    | _ => ""

/-- The bytes of the file that a path leads to. -/
def readFile (files : FileTree) (path : ByteText) : Except FileError ByteText :=
  match placeOf files path with
  | .error e => .error e
  | .ok place =>
    match files.node? place with
    | none => .error .notFound
    | some .directory => .error .isDirectory
    | some .unreadable => .error .permissionDenied
    | some _ => .ok (bytesAt files place)

/-- The files with a file at a place that holds bytes. -/
def putBytes (files : FileTree) (place : Location) (bytes : ByteText) : FileTree :=
  if isDevice place then files else files.put place (.file bytes.toText)

/-- The files with bytes written behind what a place holds. -/
def append (files : FileTree) (place : Location) (bytes : ByteText) : FileTree :=
  if isDevice place then files else putBytes files place (bytesAt files place ++ bytes)

/-- The names of what stands in a directory. -/
def namesIn (files : FileTree) (place : Location) : List String :=
  files.nodes.filterMap fun (other, _) =>
    if other.dropLast = place then other.getLast? else none

/-- The text of an error about a file, without its number. -/
def errorText : FileError → ByteText
  | .notFound => "No such file or directory"
  | .permissionDenied => "Permission denied"
  | .alreadyExists => "File exists"
  | .notDirectory => "Not a directory"
  | .isDirectory => "Is a directory"
  | .nameTooLong => "File name too long"
  | .nulCharacter => "Invalid argument"

end PhasedInduction.Host
