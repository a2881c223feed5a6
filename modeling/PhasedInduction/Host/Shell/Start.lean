import PhasedInduction.Host.Shell.Run

/-!
# The shell as a program

A shell is started with options, with a script, a file or neither, and with parameters.  It
leaves a process like any other program.
-/

namespace PhasedInduction.Host.Shell

/-- The directories that programs are looked for in if nothing else is said. -/
def usualPath : ByteText := "/usr/local/sbin:/usr/local/bin:/usr/sbin:/usr/bin:/sbin:/bin"

/-- The shell before it runs anything. -/
def fresh (name : ByteText) (i : Invocation) : Shell :=
  let given := i.environment.map fun (name, value) =>
    (name, ({ value := some value, isExported := true } : ShellVariable))
  let usual := [("IFS", " \t\n"), ("OPTIND", "1"), ("PS1", "# "), ("PS2", "> "),
    ("PS4", "+ "), ("PPID", toString (i.number - 1)), ("PATH", usualPath)].filterMap
    fun (name, value) =>
      if !(["IFS", "OPTIND", "PPID"].contains name) ∧ (i.environment.lookup name).isSome then none
      else some (name, ({ value := some value } : ShellVariable))
  let s : Shell :=
    { name
      number := i.number
      bindings := usual ++ given.reverse
      descriptors :=
        (0, .source 0) :: (if i.hasOutput then [(1, .sink 0)] else []) ++ [(2, .sink 1)]
      here := i.files.here
      shared := { sources := #[i.input.toList], sinks := #[[], []], files := i.files } }
  s.setVariable "PWD" { value := some s.herePath, isExported := true }

/-- The process that a shell leaves. -/
def process (s : Shell) (i : Invocation) : Process where
  ending := match s.shared.killed with
    | some signal => .killed signal
    | none => .exited (UInt8.ofNat s.status)
  stdout := s.written 0
  stderr := s.written 1
  tookInput := s.shared.sources[0]? ≠ some i.input.toList
  files := some { s.shared.files with here := i.files.here }
  sent := s.shared.sentOut

/-- Run a text to the end of the shell. -/
def runToEnd (e : Engine) (p : Position) (text : ByteText) (s : Shell) : Shell :=
  finish e (runText e p text s)

/-- What a shell is asked to run. -/
structure Request where
  /-- Whether a script is among the words. -/
  hasScript : Bool := false
  /-- Whether the script is read from the input, whatever words there are. -/
  readsInput : Bool := false
  words : List ByteText
deriving DecidableEq, Repr

/-- The options at the start of the words that a shell is started with.  Every turn takes a
word. -/
def startOptions : (budget : Nat) → Request → Shell → Except ByteText (Request × Shell)
  | 0, r, s => .ok (r, s)
  | budget + 1, r, s =>
    match r.words with
    | [] => .ok (r, s)
    | word :: rest =>
      match word.toList with
      | ['-'] | ['-', '-'] => .ok ({ r with words := rest }, s)
      | sign :: letters =>
        if (sign = '-' ∨ sign = '+') ∧ letters ≠ [] then
          let r := { r with
            hasScript := r.hasScript || letters.contains 'c'
            readsInput := r.readsInput || letters.contains 's' }
          let letters := letters.filter fun c => c ≠ 'c' && c ≠ 'l'
          let named := letters.contains 'o'
          match setLetters (sign = '-') (letters.filter (· ≠ 'o')) s with
          | .error c => .error ("Illegal option " ++ String.ofList [sign, c])
          | .ok s =>
            if ¬named then startOptions budget { r with words := rest } s
            else
              match rest with
              | [] => .ok ({ r with words := [] }, s)
              | name :: rest =>
                match optionNames.lookup name with
                | some c =>
                  startOptions budget { r with words := rest } (s.setOption c (sign = '-'))
                | none => .error ("Illegal option " ++ String.ofList [sign] ++ "o " ++ name)
        else .ok (r, s)
      | [] => .ok (r, s)

/-- The shell as a program that goes by a name. -/
def main (e : Engine) (name : ByteText) (i : Invocation) : Process :=
  let s := { fresh name i with line := 0 }
  let run := fun (p : Position) (text : ByteText) (s : Shell) =>
    (runToEnd e p text { s with line := 1 }).process i
  match startOptions i.arguments.length { words := i.arguments } s with
  | .error message => .failing 2 (s.messageStart ++ message)
  | .ok (r, s) =>
    if r.hasScript then
      match r.words with
      | [] => .failing 2 (s.messageStart ++ "-c requires an argument")
      | [script] => run {} script s
      | script :: name :: parameters => run {} script { s with name, parameters }
    else
      match r.words with
      | [] => run {} i.input (s.leaveToRead 0 [])
      | first :: parameters =>
        if r.readsInput then
          run {} i.input ({ s with parameters := r.words }.leaveToRead 0 [])
        else
          match readFile s.files first with
          | .ok text => run {} text { s with name := first, parameters }
          | .error .isDirectory => (fresh first i).process i
          | .error fault =>
            .failing 2 (s.messageStart ++ "cannot open " ++ first ++ ": " ++
              openingText "No such file" fault)

end PhasedInduction.Host.Shell
