import PhasedInduction.Error
import PhasedInduction.Json.Basic
import PhasedInduction.Text.Blank

/-!
# Verification properties

A property is a list of kinds that a verification task asks for.  What the rest of
the library wants to know of a property is which of three classes it satisfies;
that knowledge alone is a {lit}`Classifier`.

Main results:

- Theorem {lit}`PropertyKind.ofName?_eq_some_iff`: exactly the names of the kinds are
  read as kinds.
- Theorem {lit}`Property.mem_ofKinds`: dropping repeated kinds keeps the set of kinds.
- Theorem {lit}`Property.ofJson?_toJson`: a property survives being written and read.
-/

namespace PhasedInduction

/-! ## Kinds and classes -/

/-- What a verification task can ask for. -/
inductive PropertyKind where
  | unreachCall
  | validMemsafety
  | validMemcleanup
  | noOverflow
  | noDataRace
  | termination
deriving DecidableEq, Repr

namespace PropertyKind

/-- All kinds in the order of their declaration. -/
def all : List PropertyKind :=
  [unreachCall, validMemsafety, validMemcleanup, noOverflow, noDataRace, termination]

/-- The name of a kind in a task definition. -/
def name : PropertyKind → String
  | unreachCall => "unreach-call"
  | validMemsafety => "valid-memsafety"
  | validMemcleanup => "valid-memcleanup"
  | noOverflow => "no-overflow"
  | noDataRace => "no-data-race"
  | termination => "termination"

/-- The kind with a name. -/
def ofName? (text : String) : Option PropertyKind :=
  all.find? fun kind => kind.name = text

@[simp]
theorem ofName?_name (kind : PropertyKind) : ofName? kind.name = some kind := by
  cases kind <;> simp [ofName?, all, name]

/-- Exactly the names of the kinds are read as kinds. -/
theorem ofName?_eq_some_iff {text : String} {kind : PropertyKind} :
    ofName? text = some kind ↔ text = kind.name := by
  constructor
  · intro h
    simpa [eq_comm] using List.find?_some h
  · rintro rfl
    exact ofName?_name kind

/-- A kind as its name. -/
def toJson (kind : PropertyKind) : Json := .string kind.name

/-- The kind that a choice names. -/
def ofJson? (j : Json) : Option PropertyKind := j.choice?.bind ofName?

@[simp]
theorem ofJson?_toJson (kind : PropertyKind) : ofJson? kind.toJson = some kind := by
  simp [ofJson?, toJson]

end PropertyKind

/-- The classes that decide how a property is treated. -/
inductive PropertyClass where
  | reachability
  | memorySafety
  | termination
deriving DecidableEq, Repr

namespace PropertyClass

/-- All classes in the order of their declaration. -/
def all : List PropertyClass := [reachability, memorySafety, termination]

/-- The name of a class. -/
def name : PropertyClass → String
  | reachability => "reachability"
  | memorySafety => "memory_safety"
  | termination => "termination"

/-- The class with a name. -/
def ofName? (text : String) : Option PropertyClass :=
  all.find? fun c => c.name = text

@[simp]
theorem ofName?_name (c : PropertyClass) : ofName? c.name = some c := by
  cases c <;> simp [ofName?, all, name]

/-- A class as its name. -/
def toJson (c : PropertyClass) : Json := .string c.name

/-- The class that a choice names. -/
def ofJson? (j : Json) : Option PropertyClass := j.choice?.bind ofName?

@[simp]
theorem ofJson?_toJson (c : PropertyClass) : ofJson? c.toJson = some c := by
  simp [ofJson?, toJson]

end PropertyClass

/-- The classes that a property satisfies.  They do not exclude one another. -/
structure Classifier where
  reachability : Bool
  memorySafety : Bool
  termination : Bool
deriving DecidableEq, Repr

/-- Whether a class is among those satisfied. -/
def Classifier.satisfies (p : Classifier) : PropertyClass → Bool
  | .reachability => p.reachability
  | .memorySafety => p.memorySafety
  | .termination => p.termination

/-! ## Properties -/

/-- The kinds that a verification task asks for, in order. -/
structure Property where
  kinds : List PropertyKind
deriving DecidableEq, Repr

namespace Property

/-- The property of the given kinds, each at its first occurrence only. -/
def ofKinds (kinds : List PropertyKind) : Property := ⟨kinds.eraseDups⟩

/-- The property of one kind. -/
def single (kind : PropertyKind) : Property := ⟨[kind]⟩

/-- Dropping repeated kinds keeps the set of kinds. -/
@[simp]
theorem mem_ofKinds {kind : PropertyKind} {kinds : List PropertyKind} :
    kind ∈ (ofKinds kinds).kinds ↔ kind ∈ kinds := by
  simp [ofKinds]

/-- Whether the property asks for a kind. -/
def has (p : Property) (kind : PropertyKind) : Bool := p.kinds.contains kind

/-- The classes of a property: two kinds make it a memory safety property. -/
def classifier (p : Property) : Classifier where
  reachability := p.has .unreachCall
  memorySafety := p.has .validMemsafety || p.has .validMemcleanup
  termination := p.has .termination

/-- The names of the kinds with commas between them. -/
def display (p : Property) : String :=
  Text.joined "," (p.kinds.map PropertyKind.name)

/-! ## Reading a property text -/

/-- The parts of a property text between commas, trimmed, without the empty ones. -/
def namesIn (text : String) : List String :=
  ((Text.pieces ',' text.toList).map fun piece => String.ofList (Text.trim piece)).filter
    (· ≠ "")

/-- The kind that a name in a property text stands for. -/
def readKind (name : String) : Except DomainError PropertyKind :=
  match PropertyKind.ofName? name with
  | some kind => .ok kind
  | none => .error (.unknownPropertyKind name)

/-- The property that a text lists: its first unknown name is refused, and so is a
text without any name. -/
def parse (text : String) : Except DomainError Property :=
  match (namesIn text).mapM readKind with
  | .error e => .error e
  | .ok [] => .error .emptyProperty
  | .ok kinds => .ok (ofKinds kinds)

/-! ## Written form -/

/-- A property as an object with its kinds. -/
def toJson (p : Property) : Json :=
  .object [("kinds", .array (p.kinds.map PropertyKind.toJson))]

/-- The property of an object with kinds; repeated kinds are kept. -/
def ofJson? (j : Json) : Option Property := do
  let members ← j.object?
  let items ← Json.required members "kinds" Json.array?
  return ⟨← items.mapM PropertyKind.ofJson?⟩

/-- A property survives being written and read. -/
theorem ofJson?_toJson (p : Property) : ofJson? p.toJson = some p := by
  simp [ofJson?, toJson, Json.required,
    Json.mapM_map_of_inverse PropertyKind.ofJson?_toJson]

end Property

end PhasedInduction
