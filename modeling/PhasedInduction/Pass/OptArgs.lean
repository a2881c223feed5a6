import PhasedInduction.Error
import PhasedInduction.Pass.Basic

/-!
# Optimiser arguments

A pass list can be given to an optimiser as a flat list of arguments: a dash and
the name of each pass, each followed by a dash and every parameter of that pass.
Reading goes by the equals sign: an argument that has one is a parameter of the
pass before it, and any other argument is a new pass.

Main results:

- Theorem {lit}`PassList.toOptArgs_append`: arguments of two lists follow one another.
- Theorem {lit}`OptArg.read?_eq_none_iff`: the arguments refused by their form alone.
-/

namespace PhasedInduction

/-! ## Writing -/

/-- The arguments for one pass. -/
def Pass.toOptArgs (p : Pass) : List String :=
  ("-" ++ p.name) :: p.params.map ("-" ++ ·)

/-- The arguments for a pass list. -/
def PassList.toOptArgs (l : PassList) : List String :=
  l.passes.flatMap Pass.toOptArgs

@[simp]
theorem PassList.toOptArgs_append (a b : PassList) :
    (a ++ b).toOptArgs = a.toOptArgs ++ b.toOptArgs := by
  simp [toOptArgs]

/-! ## Reading -/

/-- What an argument is by itself. -/
inductive OptArg where
  | pass (name : String)
  | param (text : String)
deriving DecidableEq, Repr

/-- The meaning of an argument: after its dash stands a parameter if there is an
equals sign, and otherwise the name of a pass. -/
def OptArg.read? (argument : String) : Option OptArg :=
  match argument.toList with
  | '-' :: c :: body =>
    if '=' ∈ c :: body then some (.param (String.ofList (c :: body)))
    else some (.pass (String.ofList (c :: body)))
  | _ => none

/-- The arguments refused by their form have no dash or nothing after it. -/
theorem OptArg.read?_eq_none_iff {argument : String} :
    read? argument = none ↔ ∀ c body, argument.toList ≠ '-' :: c :: body := by
  unfold read?
  split
  · next c body h => simp [h]; split <;> simp
  · next h => simpa using fun c body hc => h c body hc

/-- The list with a parameter added to its last pass, if it has one. -/
def PassList.addParam? (l : PassList) (param : String) : Option PassList :=
  match l.passes.getLast? with
  | some p => some ⟨l.passes.dropLast ++ [{ p with params := p.params ++ [param] }]⟩
  | none => none

/-- The list with one more argument read. -/
def PassList.addOptArg (l : PassList) (argument : String) : Except DomainError PassList :=
  match OptArg.read? argument with
  | none => .error (.invalidPassArgument argument)
  | some (.pass name) => .ok (l.push ⟨name, []⟩)
  | some (.param text) =>
    match l.addParam? text with
    | some l => .ok l
    | none => .error (.invalidPassArgument argument)

/-- The pass list that arguments denote. -/
def PassList.ofOptArgs (arguments : List String) : Except DomainError PassList :=
  arguments.foldlM PassList.addOptArg PassList.empty

end PhasedInduction
