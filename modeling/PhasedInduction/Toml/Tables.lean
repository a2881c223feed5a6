import PhasedInduction.Toml.Item

/-!
# Building TOML tables

A document is a sequence of statements: assignments, headers of tables and headers of
array elements.  The tables they describe are built from the first statement on; a
statement that contradicts an earlier one is refused.

* A key is assigned once.
* A header opens a table once; a table that was only implied by a header below it can
  still be opened.
* Dotted keys add to tables that dotted keys made, and pass through implied ones.
* A header of an array element adds an element at the end; headers and dotted keys go
  through the last element.

Main results:

- Theorem {lit}`lookup_setEntry`: a set entry is found, and the others stay as they were.
-/

namespace PhasedInduction.Toml

/-- One statement of a document. -/
inductive Statement where
  /-- A key below a path of dotted keys gets a value. -/
  | assign (path : List String) (key : String) (item : Item)
  /-- The table at a path is opened. -/
  | header (path : List String)
  /-- The array of tables at a path gets another element, which is opened. -/
  | element (path : List String)

/-- The entries with a name set to an item: in its place if there is one, and at the
end otherwise. -/
def setEntry (name : String) (item : Item) : Entries → Entries
  | [] => [(name, item)]
  | (other, old) :: entries =>
    if name = other then (other, item) :: entries
    else (other, old) :: setEntry name item entries

/-- A set entry is found, and the others stay as they were. -/
theorem lookup_setEntry (name other : String) (item : Item) (entries : Entries) :
    (setEntry name item entries).lookup other =
      if other = name then some item else entries.lookup other := by
  induction entries with
  | nil => exact Rows.lookup_cons name other item []
  | cons entry entries ih =>
    obtain ⟨first, old⟩ := entry
    unfold setEntry
    split
    · grind [Rows.lookup_cons]
    · grind [Rows.lookup_cons]

/-- Change the entries of the last table of an array of tables. -/
def updateLast (elements : List Item) (change : Entries → Option Entries) :
    Option (List Item) :=
  match elements.getLast? with
  | some (.table origin entries) =>
    (change entries).map fun changed => elements.dropLast ++ [.table origin changed]
  | _ => none

/-- Assign a key below a path of dotted keys. -/
def assign : List String → String → Item → Entries → Option Entries
  | [], key, item, entries =>
    match entries.lookup key with
    | none => some (entries ++ [(key, item)])
    | some _ => none
  | name :: path, key, item, entries =>
    match entries.lookup name with
    | none => (assign path key item []).map fun sub => entries ++ [(name, .table .dotted sub)]
    | some (.table origin sub) =>
      if origin = .dotted ∨ (origin = .implied ∧ path ≠ []) then
        (assign path key item sub).map fun changed =>
          setEntry name (.table origin changed) entries
      else none
    | some (.tables elements) =>
      if path = [] then none
      else
        (updateLast elements (assign path key item)).map fun changed =>
          setEntry name (.tables changed) entries
    | some _ => none

/-- Change the entries of the table at a path of headers.  A table that is missing on
the way is implied; {lit}`change` is given the entries that hold the last name. -/
def alongHeaders (change : String → Entries → Option Entries) :
    List String → Entries → Option Entries
  | [], _ => none
  | [name], entries => change name entries
  | name :: path, entries =>
    match entries.lookup name with
    | none =>
      (alongHeaders change path []).map fun sub => entries ++ [(name, .table .implied sub)]
    | some (.table .inline _) => none
    | some (.table origin sub) =>
      (alongHeaders change path sub).map fun changed =>
        setEntry name (.table origin changed) entries
    | some (.tables elements) =>
      (updateLast elements (alongHeaders change path)).map fun changed =>
        setEntry name (.tables changed) entries
    | some _ => none

/-- Open the table of a name. -/
def openTable (name : String) (entries : Entries) : Option Entries :=
  match entries.lookup name with
  | none => some (entries ++ [(name, .table .explicit [])])
  | some (.table .implied sub) => some (setEntry name (.table .explicit sub) entries)
  | some _ => none

/-- Add an element to the array of tables of a name. -/
def openElement (name : String) (entries : Entries) : Option Entries :=
  match entries.lookup name with
  | none => some (entries ++ [(name, .tables [.table .explicit []])])
  | some (.tables elements) =>
    some (setEntry name (.tables (elements ++ [.table .explicit []])) entries)
  | some _ => none

/-- Change the entries of a table that was opened. -/
def inOpened (change : Entries → Option Entries) (name : String) (entries : Entries) :
    Option Entries :=
  match entries.lookup name with
  | some (.table origin sub) =>
    (change sub).map fun changed => setEntry name (.table origin changed) entries
  | some (.tables elements) =>
    (updateLast elements change).map fun changed => setEntry name (.tables changed) entries
  | _ => none

/-- What is built so far, and the path of the table that is open. -/
structure Building where
  root : Entries := []
  opened : List String := []

/-- Take one statement into account. -/
def Building.add (b : Building) : Statement → Option Building
  | .assign path key item =>
    let change := assign path key item
    let changed := match b.opened with
      | [] => change b.root
      | opened => alongHeaders (inOpened change) opened b.root
    changed.map fun root => { b with root }
  | .header path => (alongHeaders openTable path b.root).map fun root => ⟨root, path⟩
  | .element path => (alongHeaders openElement path b.root).map fun root => ⟨root, path⟩

/-- The root table that statements describe. -/
def build (statements : List Statement) : Option Entries :=
  (statements.foldlM Building.add {}).map Building.root

/-- The table that the assignments between two braces describe. -/
def buildInline (assignments : List (List String × String × Item)) : Option Item :=
  (assignments.foldlM (fun entries (path, key, item) => assign path key item entries) []).map
    (Item.table .inline)

end PhasedInduction.Toml
