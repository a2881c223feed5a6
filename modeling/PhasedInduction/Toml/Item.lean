import PhasedInduction.Json.Basic

/-!
# TOML items

What a TOML document denotes: strings, integers, floats, booleans, date-times, arrays
and tables.  A table remembers where it came from, because that decides what a later
line of the document may still add to it.  Floats and date-times keep their spelling.

Seen as data, a table is an object and an array of tables is an array of objects; a
date-time is an object with one member for its spelling.
-/

namespace PhasedInduction.Toml

/-- Where a table came from. -/
inductive Origin where
  /-- Written with its own header, or the root of the document. -/
  | explicit
  /-- Needed by a header of a table below it. -/
  | implied
  /-- Made by a dotted key. -/
  | dotted
  /-- Written between braces; nothing can be added later. -/
  | inline
deriving DecidableEq, Repr

/-- What a document or a part of it denotes. -/
inductive Item where
  | string (value : String)
  | integer (value : Int)
  | float (spelling : String)
  | boolean (value : Bool)
  | dateTime (spelling : String)
  | array (items : List Item)
  | table (origin : Origin) (entries : List (String × Item))
  /-- An array of tables with headers of its own; its elements are tables. -/
  | tables (elements : List Item)
deriving Repr, Inhabited

/-- The named entries of a table. -/
abbrev Entries := List (String × Item)

mutual

/-- An item as data. -/
def Item.toJson : Item → Json
  | .string s => .string s
  | .integer n => .integer n
  | .float spelling => .decimal spelling
  | .boolean b => .bool b
  | .dateTime spelling => .object [("date-time", .string spelling)]
  | .array items => .array (itemsToJson items)
  | .table _ entries => .object (entriesToJson entries)
  | .tables elements => .array (itemsToJson elements)

/-- Several items as data. -/
def itemsToJson : List Item → List Json
  | [] => []
  | item :: items => item.toJson :: itemsToJson items

/-- The entries of a table as members of an object. -/
def entriesToJson : List (String × Item) → List (String × Json)
  | [] => []
  | (name, item) :: entries => (name, item.toJson) :: entriesToJson entries

end

end PhasedInduction.Toml
