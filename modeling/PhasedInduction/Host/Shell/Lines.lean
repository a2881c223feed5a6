import PhasedInduction.Host.Shell.Redirection

/-!
# Running texts

A text is read and run a line at a time.  So are the actions of traps: those on a signal when
the command at work has ended, and the one on the end of the shell at last.
-/

namespace PhasedInduction.Host.Shell

/-- Run the lines of a text.  Every line takes a character at least.  If there is nothing to run
in any of them, the status is zero at the end. -/
def runLines (e : Engine) (p : Position) (ran : Bool) : (budget : Nat) → ScriptReader → Shell →
    Shell
  | 0, _, s => s
  | budget + 1, r, s =>
    if s.isStopped then s
    else if r.atEnd then (if ran then s else s.withStatus 0)
    else
      match ScriptReader.nextLine.run r with
      | .error fault => { s with line := fault.line }.abort fault.cause.message
      | .ok (.nothing, r) => runLines e p ran budget r s
      | .ok (c, r) => runLines e p true budget r (e.run p c s)

/-- Run a text. -/
def runText (e : Engine) (p : Position) (text : ByteText) (s : Shell) : Shell :=
  runLines e p false (text.length + 1) (ScriptReader.ofText text.toList 1) s

/-- Run the action of a trap; the status stays what it was unless the action ends the shell. -/
def runTrap (e : Engine) (action : ByteText) (s : Shell) : Shell :=
  let after := runLines e {} true (action.length + 1) (ScriptReader.ofText action.toList 1)
    { s with command := none, trapStatus := some s.status }
  if after.isStopped then after else { after with status := s.status, trapStatus := s.trapStatus }

/-- Deal with the signals that came. -/
def answerSignals (e : Engine) (s : Shell) : Shell :=
  s.pending.foldl (fun s signal =>
    if s.isStopped then s
    else
      match s.traps.lookup signal with
      | some action => runTrap e action s
      | none => s) { s with pending := [] }

/-- The shell at its end, after the action that is set for it. -/
def finish (e : Engine) (s : Shell) : Shell :=
  if s.shared.killed.isSome then s
  else
    match s.traps.lookup 0 with
    | some action =>
      runTrap e action { s with jump := none, traps := s.traps.filter fun t => t.1 ≠ 0 }
    | none => s

end PhasedInduction.Host.Shell
