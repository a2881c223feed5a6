import PhasedInduction.Text.Numeral
import PhasedInduction.Text.Split

/-!
# Command line arguments

The arguments of the command line program: options of the program, the name of a command,
and the options and operands of that command.  An option has a long name and perhaps a
letter; its value follows as the next argument, behind an equals sign, or directly behind
the letter.  Behind a double dash everything is an operand.  Help is asked for by an option or by
the name of a command, and what stands behind it does not matter.

Main results:

- Theorem {lit}`CommandLine.wordOfText?_eq_some_iff`: a number is read exactly when it fits into
  32 bits.
- Theorem {lit}`CommandLine.not_isValue_of_option`: what looks like an option is not taken for a
  value.
- Theorem {lit}`CommandLine.parse_help_cons`: what stands behind a request for help does not matter.
-/

namespace PhasedInduction.CommandLine

/-! ## What is asked for -/

/-- A command with its options and operands. -/
inductive Subcommand where
  | init
  | plan (property : String) (phases : UInt32) (json : Bool)
  | verifiers (property verifier llvmVersion : String) (json : Bool)
  | classify (description : String)
  | invariants (artifact : String)
deriving DecidableEq, Repr

/-- What the arguments ask for. -/
inductive Request where
  | version
  /-- Help for the program, or for a command of it. -/
  | help (command : Option String)
  | run (config : Option String) (command : Subcommand)
deriving DecidableEq, Repr

/-! ## Options -/

/-- An option of the program or of a command. -/
structure Flag where
  name : String
  letter : Option Char := none
  takesValue : Bool := true
deriving DecidableEq, Repr

/-- Where the configuration is; every command knows this option too. -/
def configFlag : Flag := { name := "config", letter := some 'c' }

/-- Shows the version of the program. -/
def versionFlag : Flag := { name := "version", letter := some 'V', takesValue := false }

/-- Shows help for the program or for a command. -/
def helpFlag : Flag := { name := "help", letter := some 'h', takesValue := false }

/-- The property that a command is about. -/
def propertyFlag : Flag := { name := "property", letter := some 'p' }

/-- Asks for a result as data. -/
def jsonFlag : Flag := { name := "json", takesValue := false }

/-- How many phases are shown. -/
def phasesFlag : Flag := { name := "phases" }

/-- The name of the verifier. -/
def verifierFlag : Flag := { name := "verifier" }

/-- The version that the verifier works on. -/
def llvmVersionFlag : Flag := { name := "llvm-version" }

/-- What an argument is by itself. -/
inductive Meaning where
  /-- An option, perhaps with a value in the same argument. -/
  | option (flag : Flag) (attached : Option String)
  | operand
  /-- Everything behind is an operand. -/
  | terminator
  | unknown
deriving DecidableEq, Repr

/-- The meaning of an argument among some options. -/
def meaning (flags : List Flag) (argument : String) : Meaning :=
  match argument.toList with
  | ['-', '-'] => .terminator
  | '-' :: '-' :: body =>
    let (name, attached) := match Text.cut '=' body with
      | some (name, value) => (name, some (String.ofList value))
      | none => (body, none)
    match flags.find? fun f => f.name.toList = name with
    | some flag => .option flag attached
    | none => .unknown
  | '-' :: letter :: body =>
    match flags.find? fun f => f.letter = some letter with
    | none => .unknown
    | some flag =>
      if flag.takesValue then
        match body with
        | [] => .option flag none
        | '=' :: value => .option flag (some (String.ofList value))
        | value => .option flag (some (String.ofList value))
      else .option flag none
  | _ => .operand

/-- Whether an argument can be the value of the option before it: what looks like an option
cannot. -/
def isValue (argument : String) : Bool :=
  match argument.toList with
  | '-' :: _ :: _ => false
  | _ => true

/-- What looks like an option is not taken for a value. -/
theorem not_isValue_of_option {flags : List Flag} {argument : String} {flag : Flag}
    {attached : Option String} (h : meaning flags argument = .option flag attached) :
    isValue argument = false := by
  unfold meaning at h
  unfold isValue
  split at h <;> simp_all

/-! ## Gathering -/

/-- Options with their values, and operands. -/
structure Gathered where
  values : List (String × String) := []
  operands : List String := []
  /-- Whether help was asked for, and nothing was gathered behind. -/
  help : Bool := false
deriving DecidableEq, Repr

namespace Gathered

/-- Take an option with its value; none may occur twice. -/
def add (g : Gathered) (flag : Flag) (value : String) : Option Gathered :=
  if (g.values.lookup flag.name).isSome then none
  else some { g with values := g.values ++ [(flag.name, value)] }

/-- The value of an option. -/
def value? (g : Gathered) (flag : Flag) : Option String := g.values.lookup flag.name

/-- Whether an option was given. -/
def has (g : Gathered) (flag : Flag) : Bool := (g.value? flag).isSome

end Gathered

/-- Gather the options and operands of a command, up to where help is asked for. -/
def gather (flags : List Flag) (g : Gathered) (arguments : List String) : Option Gathered :=
  match arguments with
  | [] => some g
  | argument :: rest =>
    match meaning flags argument with
    | .unknown => none
    | .terminator => some { g with operands := g.operands ++ rest }
    | .operand => gather flags { g with operands := g.operands ++ [argument] } rest
    | .option flag attached =>
      match flag.takesValue, attached, rest with
      | true, some value, rest =>
        match g.add flag value with
        | some g => gather flags g rest
        | none => none
      | true, none, value :: rest =>
        if isValue value then
          match g.add flag value with
          | some g => gather flags g rest
          | none => none
        else none
      | true, none, [] => none
      | false, some _, _ => none
      | false, none, rest =>
        if flag = helpFlag then some { g with help := true }
        else
          match g.add flag "" with
          | some g => gather flags g rest
          | none => none
termination_by arguments.length

/-! ## Commands -/

/-- The number of a text of digits with perhaps a sign in front. -/
def integerOfText? (text : String) : Option Int :=
  let (negative, digits) := match text.toList with
    | '+' :: digits => (false, digits)
    | '-' :: digits => (true, digits)
    | digits => (false, digits)
  if digits.isEmpty || !digits.all Text.isDecimal then none
  else
    let size := Int.ofNat (Text.decimalValue digits)
    some (if negative then -size else size)

/-- The number of a text, if it fits into 32 bits without sign. -/
def wordOfText? (text : String) : Option UInt32 :=
  match integerOfText? text with
  | some (.ofNat n) => if h : n < UInt32.size then some (UInt32.ofNatLT n h) else none
  | _ => none

/-- A number is read exactly when it fits into 32 bits, and it keeps its value. -/
theorem wordOfText?_eq_some_iff {text : String} {n : UInt32} :
    wordOfText? text = some n ↔ integerOfText? text = some (Int.ofNat n.toNat) := by
  unfold wordOfText?
  split
  · next m hm =>
    rw [hm]
    split
    · next hlt =>
      simp only [Option.some.injEq, Int.ofNat.injEq]
      rw [← UInt32.toNat_inj, UInt32.toNat_ofNatLT]
    · next hge =>
      simp only [reduceCtorEq, Option.some.injEq, Int.ofNat.injEq, false_iff]
      intro h
      exact hge (h ▸ n.toNat_lt)
  · next hm =>
    simp only [reduceCtorEq, false_iff]
    intro h
    exact hm _ h

/-- The number of phases that are shown if nothing else is asked for. -/
def defaultPhases : UInt32 := 3

/-- The one operand of a command. -/
def onlyOperand? (g : Gathered) : Option String :=
  match g.operands with
  | [operand] => some operand
  | _ => none

/-- The options of a command besides the configuration and help. -/
def flagsOf? : String → Option (List Flag)
  | "init" => some []
  | "plan" => some [propertyFlag, phasesFlag, jsonFlag]
  | "verifiers" => some [propertyFlag, verifierFlag, llvmVersionFlag, jsonFlag]
  | "classify" => some []
  | "invariants" => some []
  | _ => none

/-- Whether a command with a name can still come of what was gathered for it: no operand and no
value is wrong, although some may be missing. -/
def isOpen (name : String) (g : Gathered) : Bool :=
  g.value? configFlag ≠ some "" &&
    match name with
    | "plan" =>
      g.operands.isEmpty && (g.value? phasesFlag).all fun text => (wordOfText? text).isSome
    | "classify" => g.operands.length ≤ 1
    | "invariants" => g.operands.length ≤ 1 && !g.operands.contains ""
    | _ => g.operands.isEmpty

/-- The command of a name with what was gathered for it. -/
def subcommand? (name : String) (g : Gathered) : Option Subcommand :=
  match name with
  | "init" => if g.operands.isEmpty then some .init else none
  | "plan" =>
    if g.operands.isEmpty then do
      let property ← g.value? propertyFlag
      let phases ← match g.value? phasesFlag with
        | some text => wordOfText? text
        | none => some defaultPhases
      return .plan property phases (g.has jsonFlag)
    else none
  | "verifiers" =>
    if g.operands.isEmpty then do
      let property ← g.value? propertyFlag
      return .verifiers property ((g.value? verifierFlag).getD "klee")
        ((g.value? llvmVersionFlag).getD "unknown") (g.has jsonFlag)
    else none
  | "classify" => (onlyOperand? g).map .classify
  | "invariants" =>
    match onlyOperand? g with
    | some artifact => if artifact = "" then none else some (.invariants artifact)
    | none => none
  | _ => none

/-- The request for help that follows the name of the help command: at most one further name, of a
command. -/
def helpFor : List String → Option Request
  | [] => some (.help none)
  | [name] => if name = "help" ∨ (flagsOf? name).isSome then some (.help (some name)) else none
  | _ => none

/-- The request for a command by name; a configuration named for the command counts before
one named for the program, and neither may be empty unless help is asked for in time. -/
def requestFor (config : Option String) (name : String) (arguments : List String) :
    Option Request := do
  let flags ← flagsOf? name
  let g ← gather (configFlag :: helpFlag :: flags) {} arguments
  if g.help then
    if isOpen name g then some (.help (some name)) else none
  else
    let command ← subcommand? name g
    if g.value? configFlag = some "" ∨ config = some "" then none
    else some (.run ((g.value? configFlag).or config) command)

/-- The request of arguments, after a configuration was perhaps named. -/
def parseFrom (config : Option String) (arguments : List String) : Option Request :=
  match arguments with
  | [] => none
  | argument :: rest =>
    match meaning [configFlag, versionFlag, helpFlag] argument with
    | .operand => if argument = "help" then helpFor rest else requestFor config argument rest
    | .option flag attached =>
      if flag = configFlag then
        if config.isSome then none
        else
          match attached, rest with
          | some value, rest => if value = "" then none else parseFrom (some value) rest
          | none, value :: rest => if isValue value then parseFrom (some value) rest else none
          | none, [] => none
      else if attached.isSome ∨ config = some "" then none
      else if flag = versionFlag then some .version
      else some (.help none)
    | _ => none
termination_by arguments.length

/-- What arguments ask for, if they are well-formed. -/
def parse (arguments : List String) : Option Request := parseFrom none arguments

/-- What stands behind a request for help does not matter. -/
theorem parse_help_cons {argument : String} (h : argument = "-h" ∨ argument = "--help")
    (rest : List String) : parse (argument :: rest) = some (.help none) := by
  have hmeaning : meaning [configFlag, versionFlag, helpFlag] argument = .option helpFlag none := by
    rcases h with rfl | rfl <;> decide
  rw [parse, parseFrom, hmeaning]
  rfl

end PhasedInduction.CommandLine
