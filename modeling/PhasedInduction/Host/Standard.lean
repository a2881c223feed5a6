import PhasedInduction.Host.Condition.Outside
import PhasedInduction.Host.Shell.Start
import PhasedInduction.Host.Utility.Characters
import PhasedInduction.Host.Utility.Names
import PhasedInduction.Host.Utility.Numbers
import PhasedInduction.Host.Utility.Search
import PhasedInduction.Host.Utility.Tree
import PhasedInduction.Host.Utility.Wrappers

/-!
# A standard host

A host with the usual directories and programs, and how it starts a command.  A name without
slash is looked up in the directories of the search path; any other name is a path.

Main results:

- Theorem {lit}`Host.exists_of_start_eq_ok`: only a program of the host leaves a result.
-/

namespace PhasedInduction.Host

/-! ## Programs -/

/-- The programs of the host that start no others, by name. -/
def plainPrograms : List (String × (Invocation → Process)) :=
  [("true", fun _ => .silent 0), ("false", fun _ => .silent 1),
    ("[", OutsideTest.run "["), ("test", OutsideTest.run "test"),
    ("echo", fun i => .saying (programEcho i.arguments)),
    ("printf", fun i => programPrintf i.arguments),
    ("basename", basenameProgram), ("cat", catProgram), ("cp", cpProgram), ("cut", cutProgram),
    ("dirname", dirnameProgram), ("expr", exprProgram), ("grep", grepProgram),
    ("head", headProgram), ("ls", lsProgram), ("mkdir", mkdirProgram), ("mv", mvProgram),
    ("printenv", printenvProgram), ("pwd", pwdProgram), ("rev", revProgram), ("rm", rmProgram),
    ("rmdir", rmdirProgram), ("sed", sedProgram), ("seq", seqProgram), ("sleep", sleepProgram),
    ("sort", sortProgram), ("tac", tacProgram), ("tail", tailProgram), ("tee", teeProgram),
    ("touch", touchProgram), ("tr", trProgram), ("uname", unameProgram), ("uniq", uniqProgram),
    ("wc", wcProgram), ("which", whichProgram), ("yes", yesProgram)]

/-- The programs about users, times, devices and the contents of files that have nothing to do
on this host, with the status of a complaint. -/
def idlePrograms : List (UInt8 × List String) :=
  [(1, ["arch", "b2sum", "base32", "base64", "basenc", "chcon", "chgrp", "chmod", "chown", "cksum",
      "comm", "csplit", "date", "dd", "df", "dircolors", "expand", "factor", "fmt", "fold",
      "groups", "hostid", "id", "install", "join", "link", "ln", "logname", "md5sum", "mkfifo",
      "mknod", "mktemp", "more", "mount", "nproc", "numfmt", "od", "paste", "pathchk", "pinky",
      "pr", "ptx", "readlink", "realpath", "sha1sum", "sha224sum", "sha256sum", "sha384sum",
      "sha512sum", "shred", "shuf", "split", "stat", "sum", "sync", "truncate", "tsort",
      "unexpand", "unlink", "users", "who", "whoami"]),
    (2, ["dir", "tty", "vdir"]), (125, ["chroot", "runcon", "stdbuf"])]

/-- The idle programs by name: they refuse every option. -/
def idle : List (String × (Invocation → Process)) :=
  idlePrograms.flatMap fun (status, names) => names.map fun name =>
    (name, fun i => ({ name, status } : OptionRules).run i.arguments fun _ => .silent 0)

/-- The programs of the host that start others, by name. -/
def startingPrograms : List (String × (Start → Invocation → Process)) :=
  [("env", envProgram), ("nice", niceProgram), ("nohup", nohupProgram),
    ("timeout", timeoutProgram), ("xargs", xargsProgram),
    ("sh", fun start => Shell.main (.ofFuel start Engine.depth) "sh"),
    ("dash", fun start => Shell.main (.ofFuel start Engine.depth) "dash")]

/-- The names of the programs. -/
def programNames : List String :=
  (plainPrograms ++ idle).map Prod.fst ++ startingPrograms.map Prod.fst

/-- Run a program by name.  Each program that starts others leaves them less fuel. -/
def run : (fuel : Nat) → (program : String) → Invocation → Process
  | 0, _, _ => .silent 126
  | fuel + 1, program, i =>
    match (plainPrograms ++ idle).lookup program with
    | some plain => if i.hasOutput then plain i else (plain i).withoutOutput program
    | none =>
      match startingPrograms.lookup program with
      | some starting => starting (run fuel) i
      | none => .silent 126

/-- How deep programs may start each other. -/
def processLimit : Nat := 200

/-! ## Places -/

/-- The directories of the host that are always there. -/
def directories : List Location :=
  [["bin"], ["dev"], ["etc"], ["home"], ["proc"], ["root"], ["sbin"], ["tmp"], ["usr"],
    ["usr", "bin"], ["usr", "local"], ["usr", "local", "bin"], ["usr", "local", "sbin"],
    ["usr", "sbin"], ["var"]]

/-- Where the programs of the host are. -/
def programDirectories : List Location := [["bin"], ["usr", "bin"]]

/-- The nodes of the host. -/
def nodes : List (Location × Node) :=
  (directories.map fun place => (place, Node.directory)) ++
    (devices.map fun place => (place, Node.file "")) ++
    [(["etc", "passwd"], Node.file "root:x:0:0:root:/root:/bin/sh\n")] ++
    programDirectories.flatMap fun place =>
      programNames.map fun name => (place ++ [name], Node.executable name)

/-- The tree of the host for work in a new directory. -/
def workplace : FileTree where
  nodes := nodes ++ [(["tmp", "work"], Node.directory)]
  here := ["tmp", "work"]

/-- The directories that a name without slash is looked up in. -/
def searchPath : List String := searchDirectories Shell.usualPath

/-- The variables that every command is started with. -/
def surroundings : List (ByteText × ByteText) := [("PATH", Shell.usualPath), ("HOME", "/root")]

/-! ## Starting commands -/

/-- What the program of a command is started with. -/
def invocation (t : FileTree) (c : Command) : Invocation where
  arguments := c.arguments.map .ofText
  environment := surroundings
  files := t

/-- Start a command and wait for its end. -/
def start (t : FileTree) (c : Command) : RunResult :=
  if (c.program :: c.arguments).any (·.toList.contains '\x00') then
    .error "nul byte found in provided data"
  else
    match resolve t searchPath c.program with
    | .error e => .error e.message
    | .ok (_, program) => .ok (run processLimit program (invocation t c)).result

/-- Only a program of the host leaves a result. -/
theorem exists_of_start_eq_ok {t : FileTree} {c : Command} {result : ProcessResult}
    (h : start t c = .ok result) :
    ∃ path program, resolve t searchPath c.program = .ok (path, program) ∧
      result = (run processLimit program (invocation t c)).result := by
  unfold start at h
  split at h
  · simp at h
  · split at h
    · simp at h
    · next path program hp => exact ⟨path, program, hp, by simpa using h.symm⟩

/-- The runner that starts every command on a host. -/
def runner (t : FileTree) : Runner := .steady (start t)

end PhasedInduction.Host
