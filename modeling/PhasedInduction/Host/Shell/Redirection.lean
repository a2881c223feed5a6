import PhasedInduction.Host.Shell.Expansion

/-!
# Redirections

A redirection leads a descriptor to a file, to where another descriptor leads, to a text of
the script, or nowhere.  Those of a command hold as long as it runs.
-/

namespace PhasedInduction.Host.Shell

/-- The reason why a file is not opened, as the shell tells it. -/
def openingText (missing : ByteText) : FileError → ByteText
  | .notFound | .notDirectory => missing
  | e => errorText e

/-- The descriptor that a path stands for. -/
def descriptorPath? (path : ByteText) : Option Nat :=
  match path with
  | "/dev/stdin" => some 0
  | "/dev/stdout" => some 1
  | "/dev/stderr" => some 2
  | path =>
    let digits := path.toList.drop 8
    if path.startsWith "/dev/fd/" && !digits.isEmpty && digits.all Text.isDecimal then
      some (Text.decimalValue digits)
    else none

/-- Whether a redirection was done, and the shell after it. -/
abbrev Redirected := Bool × Shell

/-- Lead a descriptor to a file that is read. -/
def openToRead (s : Shell) (descriptor : Nat) (path : ByteText) : Redirected :=
  match placeOf s.files path with
  | .error e => (false, s.complain ("cannot open " ++ path ++ ": " ++ openingText "No such file" e))
  | .ok place =>
    match s.files.node? place with
    | none => (false, s.complain ("cannot open " ++ path ++ ": No such file"))
    | some .unreadable => (false, s.complain ("cannot open " ++ path ++ ": Permission denied"))
    | some _ =>
      let (n, s) := s.newSource (bytesAt s.files place)
      (true, s.direct descriptor (some (.source n)))

/-- Lead a descriptor to a file that is written, behind what it holds or from its start. -/
def openToWrite (s : Shell) (descriptor : Nat) (path : ByteText) (keeps : Bool) : Redirected :=
  let failed := fun reason => (false, s.complain ("cannot create " ++ path ++ ": " ++ reason))
  match placeOf s.files path with
  | .error e => failed (openingText "Directory nonexistent" e)
  | .ok place =>
    match s.files.node? place with
    | some .directory => failed "Is a directory"
    | some .unreadable => failed "Permission denied"
    | node =>
      if node.isSome ∧ s.has 'C' ∧ ¬keeps ∧ ¬isDevice place then failed "File exists"
      else
        let s := if keeps ∧ node.isSome then s else s.setFiles (putBytes s.shared.files place "")
        (true, s.direct descriptor (some (.file place)))

/-- Lead a descriptor to where another one leads. -/
def copyDescriptor (s : Shell) (descriptor : Nat) (text : ByteText) : Redirected :=
  match text.toList with
  | ['-'] => (true, s.direct descriptor none)
  | [c] =>
    if Text.isDecimal c then
      match s.stream? (c.toNat - 48) with
      | some stream => (true, s.direct descriptor (some stream))
      | none =>
        let message := text ++ ": Bad file descriptor"
        (false, if descriptor = 2 then s.withStatus 2 else s.complain message)
    else (false, s.abort "Syntax error: Bad fd number")
  | _ => (false, s.abort "Syntax error: Bad fd number")

/-- Do a redirection. -/
def redirect (e : Engine) (s : Shell) (r : Redirection Word) : Redirected :=
  match r.kind with
  | .document =>
    let (parts, s) := e.parts r.word s
    if s.isStopped then (false, s)
    else
      let (n, s) := s.newSource (WordPart.text parts)
      (true, s.direct r.descriptor (some (.source n)))
  | kind =>
    let (text, s) := expandText e r.word s
    if s.isStopped then (false, s)
    else
      match kind, descriptorPath? text with
      | .copy, _ => s.copyDescriptor r.descriptor text
      | _, some other => s.copyDescriptor r.descriptor (toString other)
      | .file .write, none => s.openToWrite r.descriptor text false
      | .file .append, none => s.openToWrite r.descriptor text true
      | _, none => s.openToRead r.descriptor text

/-- Do redirections in turn up to the first that fails. -/
def redirectAll (e : Engine) (rs : List (Redirection Word)) (s : Shell) : Redirected :=
  rs.foldl (fun (done, s) r => if done then s.redirect e r else (false, s)) (true, s)

/-- Run something with redirections that hold as long; it does not run if one fails. -/
def redirected (e : Engine) (rs : List (Redirection Word)) (run : Shell → Shell) (s : Shell) :
    Shell :=
  let descriptors := s.descriptors
  let (done, s) := redirectAll e rs s
  { (if done then run s else s) with descriptors }

end PhasedInduction.Host.Shell
