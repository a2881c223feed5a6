import PhasedInduction.Text.Numeral

/-!
# Signals

The signals of a host by number and name, what they do to a process that does not care
for them, and how a process that one ended is described.

Main results:

- Theorem {lit}`Signal.named?_name`: the name of a signal names it.
-/

namespace PhasedInduction.Host

/-- What a signal does by itself. -/
inductive SignalEffect where
  | ends
  | stops
  | nothing
deriving DecidableEq, Repr

namespace Signal

/-- The names of the first signals with their descriptions, from the number one on. -/
def table : List (String × String) :=
  [("HUP", "Hangup"), ("INT", "Interrupt"), ("QUIT", "Quit"), ("ILL", "Illegal instruction"),
    ("TRAP", "Trace/breakpoint trap"), ("ABRT", "Aborted"), ("BUS", "Bus error"),
    ("FPE", "Floating point exception"), ("KILL", "Killed"), ("USR1", "User defined signal 1"),
    ("SEGV", "Segmentation fault"), ("USR2", "User defined signal 2"), ("PIPE", "Broken pipe"),
    ("ALRM", "Alarm clock"), ("TERM", "Terminated"), ("STKFLT", "Stack fault"),
    ("CHLD", "Child exited"), ("CONT", "Continued"), ("STOP", "Stopped (signal)"),
    ("TSTP", "Stopped"), ("TTIN", "Stopped (tty input)"), ("TTOU", "Stopped (tty output)"),
    ("URG", "Urgent I/O condition"), ("XCPU", "CPU time limit exceeded"),
    ("XFSZ", "File size limit exceeded"), ("VTALRM", "Virtual timer expired"),
    ("PROF", "Profiling timer expired"), ("WINCH", "Window changed"), ("IO", "I/O possible"),
    ("PWR", "Power failure"), ("SYS", "Bad system call")]

/-- The numbers of the first and the last real-time signal; the last is the last of all. -/
def firstRealTime : Nat := 34

def last : Nat := 64

/-- The name of a real-time signal, counted from the nearer end. -/
def realTimeName (n : Nat) : String :=
  if n = firstRealTime then "RTMIN"
  else if n = last then "RTMAX"
  else if n < 50 then "RTMIN+" ++ toString (n - firstRealTime)
  else "RTMAX-" ++ toString (last - n)

/-- The name of a signal; the number zero stands for the end of a shell. -/
def name (n : Nat) : String :=
  if n = 0 then "EXIT"
  else
    match table[n - 1]? with
    | some (name, _) => name
    | none => if n < firstRealTime then toString n else realTimeName n

/-- The description of a signal. -/
def description (n : Nat) : String :=
  match table[n - 1]? with
  | some (_, text) => text
  | none => "Real-time signal " ++ toString (n - firstRealTime)

/-- The signal of a name in either case. -/
def named? (text : String) : Option Nat :=
  (List.range (last + 1)).find? fun n => name n = text.toUpper

/-- The signal of a number in digits. -/
def numbered? (text : String) : Option Nat :=
  let digits := text.toList
  if digits.isEmpty || !digits.all Text.isDecimal then none
  else if Text.decimalValue digits ≤ last then some (Text.decimalValue digits) else none

/-- The signal of a name or a number. -/
def ofText? (text : String) : Option Nat := (numbered? text).or (named? text)

/-- What a signal does to a process that does not care for it. -/
def effect (n : Nat) : SignalEffect :=
  if n = 0 ∨ n = 17 ∨ n = 18 ∨ n = 23 ∨ n = 28 then .nothing
  else if 19 ≤ n ∧ n ≤ 22 then .stops
  else .ends

/-- Whether no process can care for a signal. -/
def isStrict (n : Nat) : Bool := n = 9 || n = 19

/-- The name of a signal names it. -/
theorem named?_name {n : Nat} (h : n ≤ last) : named? (name n) = some n := by
  have : ∀ n : Fin 65, named? (name n.val) = some n.val := by decide +kernel
  exact this ⟨n, Nat.lt_succ_of_le h⟩

end Signal

end PhasedInduction.Host
