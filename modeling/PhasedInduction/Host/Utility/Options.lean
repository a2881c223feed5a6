import PhasedInduction.Host.Format.Basic

/-!
# Options of programs

Most programs of a host read their arguments alike: words that begin with a hyphen hold
options, short ones by a letter and long ones by a name, and all other words are operands.
A program states its options as a value, and gets them in order or the complaint about the
first that it does not know.

Main results:

- Theorem {lit}`OptionRules.read_operands`: words without hyphens are operands.
-/

namespace PhasedInduction.Host

/-- The options of a program. -/
structure OptionRules where
  /-- The name that complaints begin with. -/
  name : ByteText
  /-- The status of a complaint. -/
  status : UInt8 := 1
  /-- The letters of the options that stand alone. -/
  flags : List Char := []
  /-- The letters of the options that a value follows. -/
  valued : List Char := []
  /-- The long names of options, by their letters. -/
  long : List (String × Char) := []
  /-- Whether options may stand behind operands. -/
  mixes : Bool := true
  /-- What complaints show in front of the last line. -/
  usage : ByteText := ""
deriving DecidableEq, Repr

/-- The options and the operands of a program. -/
structure Operands where
  options : List (Char × ByteText) := []
  operands : List ByteText := []
deriving DecidableEq, Repr

namespace Operands

/-- Whether an option is given. -/
def has (o : Operands) (letter : Char) : Bool := o.options.any fun e => e.1 = letter

/-- The value of an option that is given last. -/
def value? (o : Operands) (letter : Char) : Option ByteText :=
  (o.options.reverse.find? fun e => e.1 = letter).map Prod.snd

/-- The last option that is one of some letters. -/
def last? (o : Operands) (letters : List Char) : Option Char :=
  (o.options.reverse.find? fun e => letters.contains e.1).map Prod.fst

/-- The operands with an option in front. -/
def withOption (o : Operands) (letter : Char) (value : ByteText) : Operands :=
  { o with options := (letter, value) :: o.options }

/-- The operands with one in front. -/
def withOperand (o : Operands) (word : ByteText) : Operands :=
  { o with operands := word :: o.operands }

end Operands

/-- A failure with a hint at the help of a program. -/
def hinted (name : ByteText) (status : UInt8) (message : ByteText) : Process :=
  .failing status (name ++ ": " ++ message ++ "\nTry '" ++ name ++
    " --help' for more information.")

namespace OptionRules

/-- The complaint about options. -/
def complaint (r : OptionRules) (message : ByteText) : Process :=
  .failing r.status (r.name ++ ": " ++ message ++ "\n" ++ r.usage ++ "Try '" ++ r.name ++
    " --help' for more information.")

/-- The long options that a name may stand for: the one of that name, or all that begin
so. -/
def matching (r : OptionRules) (name : String) : List (String × Char) :=
  match r.long.filter fun e => e.1 = name with
  | [] => r.long.filter fun e => e.1.startsWith name
  | found => found

/-- The options of a word of letters.  The letter with a value takes the rest of the word, or
the next word. -/
def letters (r : OptionRules) (next : List ByteText) : List Char →
    Except ByteText (List (Char × ByteText) × List ByteText)
  | [] => .ok ([], next)
  | c :: rest =>
    if r.flags.contains c then
      (letters r next rest).map fun (options, next) => ((c, "") :: options, next)
    else if r.valued.contains c then
      match rest, next with
      | [], value :: next => .ok ([(c, value)], next)
      | [], [] => .error ("option requires an argument -- '" ++ String.ofList [c] ++ "'")
      | rest, next => .ok ([(c, String.ofList rest)], next)
    else .error ("invalid option -- '" ++ String.ofList [c] ++ "'")

/-- A long option, with the words left. -/
def longOption (r : OptionRules) (word : ByteText) (next : List ByteText) :
    Except ByteText ((Char × ByteText) × List ByteText) :=
  let (name, value) := match Text.cut '=' (word.toList.drop 2) with
    | some (name, value) => (String.ofList name, some (String.ofList value))
    | none => (String.ofList (word.toList.drop 2), none)
  match r.matching name with
  | [(full, c)] =>
    if r.valued.contains c then
      match value, next with
      | some value, next => .ok ((c, value), next)
      | none, value :: next => .ok ((c, value), next)
      | none, [] => .error ("option '--" ++ full ++ "' requires an argument")
    else
      match value with
      | some _ => .error ("option '--" ++ full ++ "' doesn't allow an argument")
      | none => .ok ((c, ""), next)
  | [] => .error ("unrecognized option '" ++ word ++ "'")
  | found =>
    .error ("option '--" ++ name ++ "' is ambiguous; possibilities:" ++
      String.join (found.map fun e => " '--" ++ e.1 ++ "'"))

/-- The options and operands of words.  Every turn takes a word. -/
def readFrom (r : OptionRules) : (budget : Nat) → List ByteText → Except ByteText Operands
  | 0, words => .ok { operands := words }
  | _, [] => .ok {}
  | budget + 1, word :: rest =>
    match word.toList with
    | ['-', '-'] => .ok { operands := rest }
    | '-' :: '-' :: _ => do
      let ((c, value), rest) ← longOption r word rest
      return (← readFrom r budget rest).withOption c value
    | '-' :: c :: cs => do
      let (found, rest) ← letters r rest (c :: cs)
      let more ← readFrom r budget rest
      return { more with options := found ++ more.options }
    | _ =>
      if r.mixes then (readFrom r budget rest).map (Operands.withOperand · word)
      else .ok { operands := word :: rest }

/-- Run a program on its options and operands, or complain. -/
def run (r : OptionRules) (words : List ByteText) (program : Operands → Process) : Process :=
  match readFrom r words.length words with
  | .error message => r.complaint message
  | .ok o => program o

/-- Words without hyphens are operands. -/
theorem read_operands (r : OptionRules) {words : List ByteText}
    (h : ∀ w ∈ words, w.toList.head? ≠ some '-') :
    readFrom r words.length words = .ok { operands := words } := by
  induction words with
  | nil => rfl
  | cons w words ih =>
    have hw := h w (by simp)
    have ih := ih fun v hv => h v (List.mem_cons_of_mem _ hv)
    simp only [List.length_cons, readFrom]
    split <;> simp_all [Operands.withOperand, Except.map]

end OptionRules

end PhasedInduction.Host
