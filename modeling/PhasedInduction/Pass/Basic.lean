import PhasedInduction.Json.Basic

/-!
# Transformation passes

A pass is the name of a program transformation with parameters of the form
{lit}`key=value`.  A pass list is a sequence of passes whose order counts and in which
a pass may occur more than once.

Main results:

- Theorem {lit}`Pass.valueOf?_eq_some_iff`: which key a parameter has, and which value.
- Theorem {lit}`Pass.ofJson?_toJson` and {lit}`PassList.ofJson?_toJson`: passes and pass
  lists survive being written and read, though empty parameters are not written.
-/

namespace PhasedInduction

/-! ## Single passes -/

/-- A named transformation with its parameters. -/
structure Pass where
  name : String
  params : List String := []
deriving DecidableEq, Repr

namespace Pass

/-- The pass with one more parameter at the end. -/
def withParam (p : Pass) (key value : String) : Pass :=
  { p with params := p.params ++ [key ++ "=" ++ value] }

/-- The value of a parameter text if its key is the given one. -/
def valueOf? (key param : String) : Option String :=
  match Text.cut '=' param.toList with
  | some (k, v) => if k = key.toList then some (String.ofList v) else none
  | none => none

/-- The value of the first parameter with a key. -/
def param? (p : Pass) (key : String) : Option String :=
  p.params.findSome? (valueOf? key)

/-- The first equals sign of a parameter ends its key, and all behind it is the value. -/
theorem valueOf?_append {key : String} (h : '=' ∉ key.toList) (value wanted : String) :
    valueOf? wanted (key ++ "=" ++ value) = if wanted = key then some value else none := by
  have hcut : Text.cut '=' (key ++ "=" ++ value).toList = some (key.toList, value.toList) :=
    Text.cut_eq_some_iff.mpr ⟨by simp, h⟩
  simp only [valueOf?, hcut, String.ofList_toList, String.toList_inj, eq_comm]

/-- A parameter has a value for the text before its first equals sign and for no other one. -/
theorem valueOf?_eq_some_iff {wanted param value : String} :
    valueOf? wanted param = some value ↔
      param = wanted ++ "=" ++ value ∧ '=' ∉ wanted.toList := by
  constructor
  · intro h
    unfold valueOf? at h
    split at h
    · next front back hcut =>
      obtain ⟨htext, hfront⟩ := Text.cut_eq_some_iff.mp hcut
      split at h
      · next hkey =>
        subst hkey
        obtain rfl := Option.some.inj h
        refine ⟨String.toList_inj.mp ?_, hfront⟩
        simp [htext]
      · cases h
    · cases h
  · rintro ⟨rfl, hplain⟩
    rw [valueOf?_append hplain, if_pos rfl]

/-- A new parameter counts where no earlier one has the key. -/
theorem param?_withParam (p : Pass) (key value wanted : String) :
    (p.withParam key value).param? wanted =
      (p.param? wanted).or (valueOf? wanted (key ++ "=" ++ value)) := by
  rw [param?, withParam, List.findSome?_append, List.findSome?_singleton]
  rfl

/-- The text of a pass: its parameters stand in parentheses if there are any. -/
def display (p : Pass) : String :=
  if p.params.isEmpty then p.name
  else p.name ++ "(" ++ Text.joined ", " p.params ++ ")"

/-- A pass as an object; empty parameters are left out. -/
def toJson (p : Pass) : Json :=
  if p.params.isEmpty then .object [("name", .string p.name)]
  else .object [("name", .string p.name), ("params", .ofStrings p.params)]

/-- The pass of an object with a name and perhaps parameters. -/
def ofJson? (j : Json) : Option Pass := do
  let members ← j.object?
  let name ← Json.required members "name" Json.string?
  let params ← Json.withDefault members "params" [] Json.strings?
  return ⟨name, params⟩

/-- A pass survives being written and read. -/
@[simp]
theorem ofJson?_toJson (p : Pass) : ofJson? p.toJson = some p := by
  rcases p with ⟨name, _ | ⟨param, params⟩⟩ <;>
    simp [ofJson?, toJson, Json.required, Json.withDefault]

end Pass

/-! ## Pass lists -/

/-- A sequence of passes. -/
structure PassList where
  passes : List Pass := []
deriving DecidableEq, Repr

namespace PassList

/-- The list without passes. -/
def empty : PassList := ⟨[]⟩

/-- The list of one pass. -/
def single (p : Pass) : PassList := ⟨[p]⟩

/-- The passes of two lists one after the other. -/
def append (a b : PassList) : PassList := ⟨a.passes ++ b.passes⟩

instance : Append PassList := ⟨append⟩

@[simp]
theorem passes_append (a b : PassList) : (a ++ b).passes = a.passes ++ b.passes := rfl

@[simp]
theorem passes_empty : empty.passes = [] := rfl

@[simp]
theorem passes_single (p : Pass) : (single p).passes = [p] := rfl

@[ext]
theorem ext {a b : PassList} (h : a.passes = b.passes) : a = b := by
  cases a
  cases b
  simpa using h

/-- The list with one more pass at the end. -/
def push (l : PassList) (p : Pass) : PassList := ⟨l.passes ++ [p]⟩

/-- The number of passes. -/
def size (l : PassList) : Nat := l.passes.length

/-- The names of the passes in order. -/
def names (l : PassList) : List String := l.passes.map Pass.name

/-- The index of the first pass with a name. -/
def position? (l : PassList) (name : String) : Option Nat :=
  l.passes.findIdx? fun p => p.name = name

/-- Whether a pass with a name occurs. -/
def contains (l : PassList) (name : String) : Bool := (l.position? name).isSome

/-- The passes that have parameters. -/
def withParams (l : PassList) : PassList := ⟨l.passes.filter fun p => !p.params.isEmpty⟩

/-- The passes in the opposite order. -/
def reverse (l : PassList) : PassList := ⟨l.passes.reverse⟩

/-- The texts of the passes between brackets. -/
def display (l : PassList) : String :=
  "[" ++ Text.joined ", " (l.passes.map Pass.display) ++ "]"

/-- A pass list as an array. -/
def toJson (l : PassList) : Json := .array (l.passes.map Pass.toJson)

/-- The pass list of an array of passes. -/
def ofJson? (j : Json) : Option PassList := do
  let items ← j.array?
  return ⟨← items.mapM Pass.ofJson?⟩

/-- A pass list survives being written and read. -/
@[simp]
theorem ofJson?_toJson (l : PassList) : ofJson? l.toJson = some l := by
  simp [ofJson?, toJson, Json.mapM_map_of_inverse Pass.ofJson?_toJson]

end PassList

end PhasedInduction
