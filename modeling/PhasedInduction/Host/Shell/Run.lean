import PhasedInduction.Host.Shell.Commands

/-!
# Running commands

How a shell runs each kind of command.  What runs a command is an engine that runs the
commands inside it with less fuel, so that every run ends: an engine without fuel does nothing
any more.

Main results:

- Theorem {lit}`Shell.bindings_inside`: a shell inside another leaves its variables alone.
-/

namespace PhasedInduction.Host.Shell

/-! ## Programs -/

/-- Start a program and print what it prints.  If it replaces the shell, a signal that ends it
ends the process. -/
def runProgram (e : Engine) (replaces : Bool) (program : String) (arguments : List ByteText)
    (extra : List (ByteText × ByteText)) (s : Shell) : Shell :=
  let known := s.exported.filter fun v => (extra.lookup v.1).isNone
  let done := e.start program
    { arguments, input := String.ofList (s.readable 0), environment := known ++ extra
      files := s.files, hasOutput := (s.stream? 1).isSome, number := s.number + 1 }
  let s := (s.print 1 done.stdout).print 2 done.stderr
  let s := if done.tookInput then s.leaveToRead 0 [] else s
  let s := match done.files with
    | some files => s.setFiles { files with here := s.shared.files.here }
    | none => s
  let s := done.sent.foldr (fun sent s => s.forward sent) (s.withStatus done.ending.status.toNat)
  match done.ending with
  | .exited _ => s
  | .killed signal =>
    if replaces ∧ ¬s.isInner then { s with shared := { s.shared with killed := some signal } }
    else if signal = 2 ∨ signal = 13 then s
    else s.print 2 (Signal.description signal ++ "\n")

/-- Put a program in place of the shell. -/
def execCommand (e : Engine) (arguments : List ByteText) (extra : List (ByteText × ByteText))
    (s : Shell) : Shell :=
  match arguments with
  | [] => s.withStatus 0
  | name :: arguments =>
    match s.findProgram name with
    | .program _ program =>
      (runProgram e true program arguments extra { s with traps := [] }).leave
    | .unknown reason status =>
      let status := if reason = "Permission denied" then 126 else status
      ((s.warn (name ++ ": " ++ reason)).withStatus status).leave
    | _ => s

/-! ## Functions -/

/-- How deep functions may be called. -/
def callLimit : Nat := 1000

/-- Call a function. -/
def callFunction (e : Engine) (p : Position) (body : ScriptCommand) (arguments : List ByteText)
    (s : Shell) : Shell :=
  if callLimit ≤ s.calls then
    s.abort ("Maximum function recursion depth (" ++ toString callLimit ++ ") reached")
  else
    let inner := e.run p body
      { s with parameters := arguments, loops := 0, calls := s.calls + 1, saved := [] :: s.saved }
    let inner := restore (inner.saved.head?.getD []) inner
    { inner with
      parameters := s.parameters
      loops := s.loops
      calls := s.calls
      saved := s.saved
      jump := if inner.jump = some .back then none else inner.jump }

/-! ## Simple commands -/

/-- The words of a command.  Where the first one sets variables, a word that is an assignment
is not cut. -/
def expandArguments (e : Engine) (done : List ByteText) (words : List Word) (s : Shell) :
    List ByteText × Shell :=
  match words with
  | [] => (done, s)
  | w :: rest =>
    let declares := ["export", "readonly", "local"].contains (done.head?.getD "")
    match if declares then ScriptRules.assignment? w else none with
    | some (name, value) =>
      let (text, s) := expandText e value s
      expandArguments e (done ++ [name ++ "=" ++ text]) rest s
    | none =>
      let (more, s) := expandWord e w s
      expandArguments e (done ++ more) rest s

/-- The values of assignments in turn; each is set on demand before the next is read. -/
def expandAssignments (e : Engine) (sets : Bool) : List (ByteText × Word) → Shell →
    List (ByteText × ByteText) × Shell
  | [], s => ([], s)
  | (name, w) :: rest, s =>
    let (value, s) := expandText e w s
    if s.isStopped then ([], s)
    else
      let s := if sets then s.assign name value else s
      let (more, s) := expandAssignments e sets rest s
      ((name, value) :: more, s)

/-- Show a command before it runs, if an option says so. -/
def trace (assignments : List (ByteText × ByteText)) (words : List ByteText) (s : Shell) : Shell :=
  if s.has 'x' then
    let lead := (s.value? "PS4").getD "+ "
    let shown := assignments.map fun (name, value) => name ++ "=" ++ value
    s.print 2 (lead ++ Text.joined " " (shown ++ words) ++ "\n")
  else s

/-- Run something with variables that are exported as long. -/
def withVariables (extra : List (ByteText × ByteText)) (run : Shell → Shell) (s : Shell) : Shell :=
  let old := extra.map fun (name, _) => (name, s.entry? name)
  let s := extra.foldl (fun s (name, value) =>
    let s := s.assign name value
    s.setVariable name { (s.entry? name).getD {} with isExported := true }) s
  if s.isStopped then s else restore old (run s)

/-- Run a command of the shell under its name. -/
def underName (name : ByteText) (run : Shell → Shell) (s : Shell) : Shell :=
  { run { s with command := some name } with command := s.command }

/-- Run the words of a command, with functions or without. -/
def runWords (e : Engine) (p : Position) (functions : Bool) (extra : List (ByteText × ByteText))
    (name : ByteText) (arguments : List ByteText) (s : Shell) : Shell :=
  match s.find functions name with
  | .special =>
    let s := extra.foldl (fun s (name, value) => if s.isStopped then s else s.assign name value) s
    if s.isStopped then s
    else if name = "exec" then underName name (execCommand e arguments extra) s
    else underName name (runSpecial e p name arguments) s
  | .function body => withVariables extra (callFunction e p body arguments) s
  | .plain =>
    withVariables extra (fun s => (underName name (runPlain name arguments) s).recovered) s
  | .program _ program => runProgram e false program arguments extra (s.remember name)
  | .unknown reason status => (s.warn (name ++ ": " ++ reason)).withStatus status

/-- What {lit}`command` does: tell what names stand for, or run words without functions.  It
may stand in front of itself. -/
def runWithoutFunctions (e : Engine) (p : Position) (extra : List (ByteText × ByteText)) :
    (arguments : List ByteText) → Shell → Shell
  | [], s => s.withStatus 0
  | word :: rest, s =>
    if word = "-v" then underName "command" (tell locate (rest.take 1)) s
    else if word = "-V" then underName "command" (tell describe (rest.take 1)) s
    else if word = "-p" ∨ word = "--" ∨ word = "command" then runWithoutFunctions e p extra rest s
    else (runWords e p false extra word rest s).recovered

/-- Run a simple command. -/
def runSimple (e : Engine) (p : Position) (assignments : List (ByteText × Word))
    (words : List Word) (rs : List (Redirection Word)) (s : Shell) : Shell :=
  let (words, s) := expandArguments e [] words { s with outputStatus := 0 }
  if s.isStopped then s
  else
    match words with
    | [] =>
      redirected e rs (fun s =>
        let (shown, s) := expandAssignments e true assignments s
        if s.isStopped then s else (trace shown [] s).withStatus s.outputStatus) s
    | name :: arguments =>
      let descriptors := s.descriptors
      let (done, s) := redirectAll e rs s
      let isSpecial := specialCommands.contains name
      let s :=
        if s.isStopped then s
        else if ¬done then (if isSpecial then s.leave else s)
        else
          let (extra, s) := expandAssignments e false assignments s
          if s.isStopped then s
          else
            let s := trace extra words s
            if name = "command" then runWithoutFunctions e p extra arguments s
            else runWords e p true extra name arguments s
      if name = "exec" ∧ arguments.isEmpty ∧ done then s else { s with descriptors }

/-! ## Other commands -/

/-- End the shell after a failure that nothing looks at, if an option says so. -/
def checked (p : Position) (s : Shell) : Shell :=
  if s.has 'e' ∧ ¬p.isTested ∧ s.status ≠ 0 ∧ ¬s.isStopped then s.leave else s

/-- Look for the program of a command that is about to run in a shell of its own. -/
def rememberFirst (s : Shell) (c : ScriptCommand) : Shell :=
  match c with
  | .simple _ _ (word :: _) _ =>
    match Piece.text? word with
    | some name => s.remember (String.ofList name)
    | none => s
  | _ => s

/-- Run commands in turn, each with the output of the one before it as its input. -/
def runPipeline (e : Engine) (p : Position) : List ScriptCommand → Shell → Shell
  | [], s => s
  | [last], s => e.inside p last s
  | c :: rest, s =>
    let descriptors := s.descriptors
    let status := s.status
    let (sink, s) := s.newSink
    let s := e.inside p c (s.direct 1 (some (.sink sink)))
    if s.isStopped then s
    else
      let (source, s) := s.newSource (s.written sink)
      runPipeline e p rest ({ s with descriptors, status }.direct 0 (some (.source source)))

/-- Run a command in the background, which ends before anything else is done. -/
def runBackground (e : Engine) (body : ScriptCommand) (s : Shell) : Shell :=
  let descriptors := s.descriptors
  let (source, s) := s.newSource ""
  let inner := e.inside {} body (s.direct 0 (some (.source source)))
  let number := (inner.jobs.head?.map fun job => job.1 + 1).getD (s.number + 1)
  { inner with descriptors, jobs := (number, inner.status) :: inner.jobs, status := 0 }

/-- Whether a loop ends after a turn, and the shell after a jump that is meant for it. -/
def afterTurn (s : Shell) : Bool × Shell :=
  if s.shared.killed.isSome then (true, s)
  else
    match s.jump with
    | none => (false, s)
    | some (.loops levels goesOn) =>
      if levels ≤ 1 then (!goesOn, { s with jump := none })
      else (true, { s with jump := some (.loops (levels - 1) goesOn) })
    | some _ => (true, s)

/-- Do turns as long as they ask for another one. -/
def turns {α : Type} (turn : α → Bool × α) : (budget : Nat) → α → α
  | 0, a => a
  | budget + 1, a =>
    match turn a with
    | (true, a) => a
    | (false, a) => turns turn budget a

/-- How many turns a loop may take. -/
def turnLimit : Nat := 10000000

/-- One turn of a loop that goes on as long as a test succeeds or fails; the status of the last
turn is kept. -/
def loopTurn (e : Engine) (p : Position) (succeeds : Bool) (test body : ScriptCommand)
    (before : Nat × Shell) : Bool × Nat × Shell :=
  let (ends, s) := (e.run .tested test before.2).afterTurn
  if ends then (true, if s.jump.isSome then s.status else before.1, s)
  else if (s.status = 0) ≠ succeeds then (true, before.1, s)
  else
    let (ends, s) := (e.run p body s).afterTurn
    (ends, s.status, s)

/-- Run a loop that goes on as long as a test succeeds or fails. -/
def runLoop (e : Engine) (p : Position) (succeeds : Bool) (test body : ScriptCommand)
    (s : Shell) : Shell :=
  let inner := { s with loops := s.loops + 1 }
  let (status, inner) := turns (loopTurn e p succeeds test body) turnLimit (0, inner)
  { inner with loops := s.loops, status }

/-- Run a command for words in turn. -/
def runForWords (e : Engine) (p : Position) (name : ByteText) (body : ScriptCommand) :
    List ByteText → Shell → Shell
  | [], s => s
  | word :: rest, s =>
    let s := s.assign name word
    if s.isStopped then s
    else
      let (ends, s) := (e.run p body s).afterTurn
      if ends then s else runForWords e p name body rest s

/-- Run a loop over words. -/
def runEach (e : Engine) (p : Position) (name : ByteText) (words : List Word)
    (body : ScriptCommand) (s : Shell) : Shell :=
  let (words, s) := expandWords e words s
  if s.isStopped then s
  else
    let before := if words.isEmpty then s.withStatus 0 else s
    let inner := runForWords e p name body words { before with loops := s.loops + 1 }
    { inner with loops := s.loops }

/-- Whether one of some patterns fits a text. -/
def fitsAny (e : Engine) (text : ByteText) : List Word → Shell → Bool × Shell
  | [], s => (false, s)
  | w :: rest, s =>
    let (pattern, s) := expandPattern e w s
    if s.isStopped then (false, s)
    else if pattern.fits text.toList then (true, s) else fitsAny e text rest s

/-- Run the command of the first patterns that fit a text. -/
def runArms (e : Engine) (p : Position) (text : ByteText) :
    List (List Word × ScriptCommand) → Shell → Shell
  | [], s => s.withStatus 0
  | (patterns, body) :: rest, s =>
    let (fits, s) := fitsAny e text patterns s
    if s.isStopped then s
    else if fits then
      match body with
      | .nothing => s.withStatus 0
      | body => e.run p body s
    else runArms e p text rest s

/-- Run a command that depends on a test. -/
def runChoice (e : Engine) (p : Position) (test yes no : ScriptCommand) (s : Shell) : Shell :=
  let s := e.run .tested test s
  if s.isStopped then s
  else if s.status = 0 then e.run p yes s
  else
    match no with
    | .nothing => s.withStatus 0
    | no => e.run p no s

/-- Run a command with an engine for the commands inside it. -/
def runCommand (e : Engine) (p : Position) (c : ScriptCommand) (s : Shell) : Shell :=
  match c with
  | .nothing => s
  | .simple line assignments words rs =>
    checked p (runSimple e p assignments words rs { s with line })
  | .pipeline parts =>
    let after := runPipeline e p parts { parts.foldl rememberFirst s with isInner := true }
    checked p { after with descriptors := s.descriptors, isInner := s.isInner }.deliver
  | .inverted body =>
    let s := e.run .tested body s
    if s.isStopped then s else s.withStatus (if s.status = 0 then 1 else 0)
  | .both first second =>
    let s := e.run .tested first s
    if s.isStopped ∨ s.status ≠ 0 then s else e.run p second s
  | .either first second =>
    let s := e.run .tested first s
    if s.isStopped ∨ s.status = 0 then s else e.run p second s
  | .sequence first second => e.run p second (e.run p first s)
  | .background body => runBackground e body s
  | .inner line body =>
    let s := { s with line }
    checked p (e.inside p body s)
  | .choice test yes no => runChoice e p test yes no s
  | .loop succeeds test body => runLoop e p succeeds test body s
  | .each line name words body => runEach e p name words body { s with line }
  | .cases line word arms =>
    let (text, s) := expandText e word { s with line }
    if s.isStopped then s else runArms e p text arms s
  | .define name body =>
    { s with
      functions := (name, body) :: s.functions.filter fun f => f.1 ≠ name
      status := 0 }
  | .redirected line rs body => redirected e rs (e.run p body) { s with line }

/-- Run a command and deal with the signals that came, unless the shell has stopped. -/
def run (e : Engine) (p : Position) (c : ScriptCommand) (s : Shell) : Shell :=
  if s.isStopped ∨ s.has 'n' then s else answerSignals e (runCommand e p c s)

/-- Run a command in a shell of its own. -/
def inside (e : Engine) (p : Position) (c : ScriptCommand) (s : Shell) : Shell :=
  (s.adopt (finish e (e.run p c s.child))).deliver

/-- A shell inside another leaves its variables alone. -/
theorem bindings_inside (e : Engine) (p : Position) (c : ScriptCommand) (s : Shell) :
    (inside e p c s).bindings = s.bindings := by
  simp [inside]

end PhasedInduction.Host.Shell

namespace PhasedInduction.Host.Engine

/-- The engine with so much fuel; each command takes some from the commands inside it. -/
def ofFuel (start : (program : String) → Invocation → Process) : (fuel : Nat) → Engine
  | 0 => spent start
  | fuel + 1 =>
    { run := fun p c s => Shell.run (ofFuel start fuel) p c s
      inside := fun p c s => Shell.inside (ofFuel start fuel) p c s
      parts := fun w s => Shell.partsOf (ofFuel start fuel) w s
      start }

/-- How deep commands may stand inside each other. -/
def depth : Nat := 5000

end PhasedInduction.Host.Engine
