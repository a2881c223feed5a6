import PhasedInduction.Host.Utility.Lines

/-!
# Small programs

Programs that only succeed or fail, wait, repeat a line, or show a part of a path or a
variable.

Main results:

- Theorem {lit}`baseName_of_no_slash`: a name without slashes is its own last part.
-/

namespace PhasedInduction.Host

/-! ## Parts of paths -/

/-- A path without the slashes at its end. -/
def withoutEndSlashes (s : List Char) : List Char := (s.reverse.dropWhile (· = '/')).reverse

/-- The last part of a path. -/
def baseName (s : List Char) : List Char :=
  match withoutEndSlashes s with
  | [] => s.take 1
  | trimmed => (trimmed.reverse.takeWhile (· ≠ '/')).reverse

/-- A name without slashes is its own last part. -/
theorem baseName_of_no_slash {s : List Char} (h : '/' ∉ s) : baseName s = s := by
  have hr : '/' ∉ s.reverse := by simpa using h
  have hd : ∀ l : List Char, '/' ∉ l → l.dropWhile (· = '/') = l := by
    intro l hl
    cases l with
    | nil => rfl
    | cons c l =>
      have hc : c ≠ '/' := fun e => hl (by simp [e])
      simp [hc]
  have ht : ∀ l : List Char, '/' ∉ l → l.takeWhile (· ≠ '/') = l := by
    intro l hl
    induction l with
    | nil => rfl
    | cons c l ih =>
      have hc : c ≠ '/' := fun e => hl (by simp [e])
      have := ih fun h' => hl (List.mem_cons_of_mem _ h')
      simp [hc] at this ⊢
      exact this
  unfold baseName withoutEndSlashes
  rw [hd _ hr, List.reverse_reverse]
  cases s with
  | nil => rfl
  | cons c s =>
    simp only [ht _ hr]
    simp

/-- A path without its last part; it is a dot if nothing is left. -/
def directoryName (s : List Char) : List Char :=
  let rest := (withoutEndSlashes s).reverse.dropWhile (· ≠ '/')
  match withoutEndSlashes rest.reverse with
  | [] => if s.head? = some '/' then ['/'] else ['.']
  | found => found

/-- A name without a text at its end, unless that is all of it. -/
def withoutSuffix (suffix name : List Char) : List Char :=
  if suffix ≠ name ∧ suffix.reverse.isPrefixOf name.reverse then
    name.take (name.length - suffix.length)
  else name

/-- Show the last parts of paths. -/
def basenameProgram (i : Invocation) : Process :=
  let rules : OptionRules :=
    { name := "basename", flags := ['a', 'z'], valued := ['s'], mixes := false
      long := [("multiple", 'a'), ("suffix", 's'), ("zero", 'z')] }
  rules.run i.arguments fun o =>
    let stop := if o.has 'z' then "\x00" else "\n"
    let answer := fun (suffix : ByteText) (names : List ByteText) =>
      Process.saying (String.join (names.map fun name =>
        String.ofList (withoutSuffix suffix.toList (baseName name.toList)) ++ stop))
    match o.operands with
    | [] => hinted "basename" 1 "missing operand"
    | first :: rest =>
      if o.has 'a' ∨ o.has 's' then answer ((o.value? 's').getD "") (first :: rest)
      else
        match rest with
        | [] => answer "" [first]
        | [suffix] => answer suffix [first]
        | _ :: extra :: _ => hinted "basename" 1 ("extra operand " ++ quoted extra)

/-- Show paths without their last parts. -/
def dirnameProgram (i : Invocation) : Process :=
  let rules : OptionRules :=
    { name := "dirname", flags := ['z'], long := [("zero", 'z')] }
  rules.run i.arguments fun o =>
    let stop := if o.has 'z' then "\x00" else "\n"
    if o.operands.isEmpty then hinted "dirname" 1 "missing operand"
    else
      .saying (String.join (o.operands.map fun name =>
        String.ofList (directoryName name.toList) ++ stop))

/-! ## Waiting and repeating -/

/-- Whether a word is a time to wait. -/
def isInterval (word : ByteText) : Bool :=
  match Real.prefixed? .double word.toList with
  | some (⟨.finite false _ _, _⟩, rest) | some (⟨.infinite false, _⟩, rest) =>
    rest.isEmpty || ['s', 'm', 'h', 'd'].any fun c => rest = [c]
  | _ => false

/-- Wait; nothing is seen of it. -/
def sleepProgram (i : Invocation) : Process :=
  ({ name := "sleep" } : OptionRules).run i.arguments fun o =>
    match o.operands.filter fun w => !isInterval w with
    | [] => if o.operands.isEmpty then hinted "sleep" 1 "missing operand" else .silent 0
    | wrong =>
      .failing 1 (String.join (wrong.map fun w =>
        "sleep: invalid time interval " ++ quoted w ++ "\n") ++
          "Try 'sleep --help' for more information.")

/-- How many lines are taken of a program that repeats one without end. -/
def repeatLimit : Nat := 262144

/-- Repeat a line until nobody reads any more. -/
def yesProgram (i : Invocation) : Process :=
  ({ name := "yes", mixes := true } : OptionRules).run i.arguments fun o =>
    let line := (if o.operands.isEmpty then "y" else Text.joined " " o.operands) ++ "\n"
    { ending := .killed 13, stdout := String.join (List.replicate repeatLimit line) }

/-! ## What surrounds a process -/

/-- Show the values of variables. -/
def printenvProgram (i : Invocation) : Process :=
  let rules : OptionRules :=
    { name := "printenv", status := 2, flags := ['0'], mixes := false, long := [("null", '0')] }
  rules.run i.arguments fun o =>
    let stop := if o.has '0' then "\x00" else "\n"
    if o.operands.isEmpty then
      .saying (String.join (i.environment.map fun (name, value) => name ++ "=" ++ value ++ stop))
    else
      let found := o.operands.filterMap fun name => i.environment.lookup name
      { ending := .exited (if found.length = o.operands.length then 0 else 1)
        stdout := String.join (found.map (· ++ stop)) }

/-- The path of a place. -/
def placePath (place : Location) : ByteText :=
  match place with
  | [] => "/"
  | names => String.join (names.map fun name => "/" ++ ByteText.ofText name)

/-- Show the working directory. -/
def pwdProgram (i : Invocation) : Process :=
  let rules : OptionRules :=
    { name := "pwd", flags := ['L', 'P'], long := [("logical", 'L'), ("physical", 'P')] }
  rules.run i.arguments fun o =>
    let answer := Process.saying (placePath i.files.here ++ "\n")
    if o.operands.isEmpty then answer
    else { answer with stderr := "pwd: ignoring non-option arguments\n" }

/-- Show the name of the system. -/
def unameProgram (i : Invocation) : Process :=
  let rules : OptionRules :=
    { name := "uname", flags := ['s', 'm', 'o']
      long := [("kernel-name", 's'), ("machine", 'm'), ("operating-system", 'o')] }
  rules.run i.arguments fun o =>
    match o.operands with
    | extra :: _ => hinted "uname" 1 ("extra operand " ++ quoted extra)
    | [] =>
      let o := if o.options.isEmpty then o.withOption 's' "" else o
      let names := [('s', "Linux"), ('m', "x86_64"), ('o', "GNU/Linux")].filterMap fun (c, name) =>
        if o.has c then some name else none
      .saying (Text.joined " " names ++ "\n")

end PhasedInduction.Host
