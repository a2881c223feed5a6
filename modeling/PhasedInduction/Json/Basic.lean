import PhasedInduction.Rows
import PhasedInduction.Text.Split

/-!
# JSON values

A value is what a JSON text denotes.  Numbers that are written with a fraction or
an exponent keep their spelling; every other number is an integer.  The members of
an object stand in order, without two of one name when they come from a text.

Readers of the form {lit}`x?` give the content of a value of the right shape and
{lit}`none` for every other value.

Main results:

- Theorem {lit}`word32?_ofWord32` and {lit}`word64?_ofWord64`: machine words survive
  being written and read.
- Theorem {lit}`mapM_map_of_inverse`: reading a list of written values is decided
  element by element.
-/

namespace PhasedInduction

/-- A JSON value. -/
inductive Json where
  | null
  | bool (value : Bool)
  | integer (value : Int)
  | decimal (spelling : String)
  | string (value : String)
  | array (items : List Json)
  | object (members : List (String × Json))
deriving Repr, BEq, Inhabited

/-- The named members of an object. -/
abbrev Members := List (String × Json)

namespace Json

/-! ## Readers for single values -/

/-- The members of an object. -/
def object? : Json → Option Members
  | object members => some members
  | _ => none

/-- The items of an array. -/
def array? : Json → Option (List Json)
  | array items => some items
  | _ => none

/-- The content of a string. -/
def string? : Json → Option String
  | string value => some value
  | _ => none

/-- The truth value of a boolean. -/
def bool? : Json → Option Bool
  | bool value => some value
  | _ => none

/-- The value of an integer that is not negative. -/
def natural? : Json → Option Nat
  | integer (.ofNat n) => some n
  | _ => none

/-- The value of an integer that fits into 32 bits without sign. -/
def word32? (j : Json) : Option UInt32 :=
  match j.natural? with
  | some n => if h : n < UInt32.size then some (UInt32.ofNatLT n h) else none
  | none => none

/-- The value of an integer that fits into 64 bits without sign. -/
def word64? (j : Json) : Option UInt64 :=
  match j.natural? with
  | some n => if h : n < UInt64.size then some (UInt64.ofNatLT n h) else none
  | none => none

/-- The strings of an array that holds nothing else. -/
def strings? (j : Json) : Option (List String) :=
  match j.array? with
  | some items => items.mapM string?
  | none => none

/-- The name of a choice: a string, or an object whose only member has the name
and no content. -/
def choice? : Json → Option String
  | string name => some name
  | object [(name, null)] => some name
  | _ => none

/-! ## Writers for single values -/

/-- A 32-bit word as an integer. -/
def ofWord32 (n : UInt32) : Json := integer (Int.ofNat n.toNat)

/-- A 64-bit word as an integer. -/
def ofWord64 (n : UInt64) : Json := integer (Int.ofNat n.toNat)

/-- A number of things as an integer. -/
def ofNat (n : Nat) : Json := integer (Int.ofNat n)

/-- A list of strings as an array. -/
def ofStrings (texts : List String) : Json := array (texts.map string)

/-- A value that may be missing, with {lit}`null` for a missing one. -/
def ofOption {α : Type} (write : α → Json) : Option α → Json
  | none => null
  | some a => write a

@[simp]
theorem string?_string (s : String) : (string s).string? = some s := rfl

@[simp]
theorem object?_object (members : Members) : (object members).object? = some members := rfl

@[simp]
theorem array?_array (items : List Json) : (array items).array? = some items := rfl

@[simp]
theorem bool?_bool (b : Bool) : (bool b).bool? = some b := rfl

@[simp]
theorem choice?_string (s : String) : (string s).choice? = some s := rfl

/-- A 32-bit word survives being written and read. -/
@[simp]
theorem word32?_ofWord32 (n : UInt32) : (ofWord32 n).word32? = some n := by
  have h : n.toNat < UInt32.size := n.toNat_lt
  simp [word32?, ofWord32, natural?, h]

/-- A 64-bit word survives being written and read. -/
@[simp]
theorem word64?_ofWord64 (n : UInt64) : (ofWord64 n).word64? = some n := by
  have h : n.toNat < UInt64.size := n.toNat_lt
  simp [word64?, ofWord64, natural?, h]

/-- Reading a list of written values succeeds when each value reads back. -/
theorem mapM_map_of_inverse {α : Type} {write : α → Json} {read : Json → Option α}
    (h : ∀ a, read (write a) = some a) (l : List α) :
    (l.map write).mapM read = some l := by
  induction l with
  | nil => rfl
  | cons a l ih => simp [h, ih]

/-- A list of strings survives being written and read. -/
@[simp]
theorem strings?_ofStrings (texts : List String) : (ofStrings texts).strings? = some texts := by
  simp [strings?, ofStrings, mapM_map_of_inverse string?_string]

/-! ## Members of objects -/

/-- A member of another name does not count. -/
@[simp]
theorem lookup_cons_of_ne {name other : String} (h : name ≠ other) (value : Json)
    (members : Members) :
    List.lookup name ((other, value) :: members) = List.lookup name members := by
  rw [Rows.lookup_cons, if_neg h]

/-- The member of the given name, read by {lit}`read`; it has to be there. -/
def required {α : Type} (members : Members) (name : String) (read : Json → Option α) :
    Option α :=
  match members.lookup name with
  | some value => read value
  | none => none

/-- The member of the given name, read by {lit}`read`; a missing one counts as
{lit}`absent`. -/
def withDefault {α : Type} (members : Members) (name : String) (absent : α)
    (read : Json → Option α) : Option α :=
  match members.lookup name with
  | some value => read value
  | none => some absent

/-- The member of the given name, read by {lit}`read`; it may be missing or
{lit}`null`. -/
def optional {α : Type} (members : Members) (name : String) (read : Json → Option α) :
    Option (Option α) :=
  match members.lookup name with
  | none => some none
  | some null => some none
  | some value => (read value).map some

end Json

end PhasedInduction
