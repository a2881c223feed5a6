import PhasedInduction.Json.Basic

/-!
# Writing JSON

A value is written on one line, or spread over lines with every level indented by
two more spaces.  Strings escape the quote, the backslash and the control
characters below the space, five of them by a letter and the others by four
lower-case hexadecimal digits.
-/

namespace PhasedInduction.Json

/-- The digits of a control character in an escape. -/
def controlDigits (c : Char) : List Char :=
  let digit (n : Nat) : Char := Char.ofNat (if n < 10 then 48 + n else 87 + n)
  ['0', '0', digit (c.toNat / 16), digit (c.toNat % 16)]

/-- One character inside a quoted string. -/
def escaped (c : Char) : List Char :=
  if c = '"' then ['\\', '"']
  else if c = '\\' then ['\\', '\\']
  else if c = '\n' then ['\\', 'n']
  else if c = '\r' then ['\\', 'r']
  else if c = '\t' then ['\\', 't']
  else if c = '\x08' then ['\\', 'b']
  else if c = '\x0c' then ['\\', 'f']
  else if c.toNat < 0x20 then '\\' :: 'u' :: controlDigits c
  else [c]

/-- A string between quotes. -/
def quoted (s : String) : String :=
  String.ofList ('"' :: s.toList.flatMap escaped ++ ['"'])

mutual

/-- A value on one line, without blanks. -/
def compact : Json → String
  | null => "null"
  | bool true => "true"
  | bool false => "false"
  | integer n => toString n
  | decimal spelling => spelling
  | string s => quoted s
  | array items => "[" ++ compactItems items ++ "]"
  | object members => "\x7b" ++ compactMembers members ++ "\x7d"

/-- The items of an array on one line. -/
def compactItems : List Json → String
  | [] => ""
  | [item] => compact item
  | item :: items => compact item ++ "," ++ compactItems items

/-- The members of an object on one line. -/
def compactMembers : List (String × Json) → String
  | [] => ""
  | [(name, value)] => quoted name ++ ":" ++ compact value
  | (name, value) :: members =>
    quoted name ++ ":" ++ compact value ++ "," ++ compactMembers members

end

/-- A new line indented to a depth. -/
def indented (depth : Nat) : String :=
  String.ofList ('\n' :: List.replicate (2 * depth) ' ')

mutual

/-- A value whose nested items start at a depth. -/
def prettyAt (depth : Nat) : Json → String
  | null => "null"
  | bool true => "true"
  | bool false => "false"
  | integer n => toString n
  | decimal spelling => spelling
  | string s => quoted s
  | array [] => "[]"
  | array (item :: items) =>
    "[" ++ indented (depth + 1) ++ prettyAt (depth + 1) item ++ prettyItems (depth + 1) items
      ++ indented depth ++ "]"
  | object [] => "\x7b\x7d"
  | object ((name, value) :: members) =>
    "\x7b" ++ indented (depth + 1) ++ quoted name ++ ": " ++ prettyAt (depth + 1) value
      ++ prettyMembers (depth + 1) members ++ indented depth ++ "\x7d"

/-- The items after the first one of an array. -/
def prettyItems (depth : Nat) : List Json → String
  | [] => ""
  | item :: items =>
    "," ++ indented depth ++ prettyAt depth item ++ prettyItems depth items

/-- The members after the first one of an object. -/
def prettyMembers (depth : Nat) : List (String × Json) → String
  | [] => ""
  | (name, value) :: members =>
    "," ++ indented depth ++ quoted name ++ ": " ++ prettyAt depth value
      ++ prettyMembers depth members

end

/-- A value spread over lines. -/
def pretty (j : Json) : String :=
  prettyAt 0 j

/-! ## Sorted objects -/

/-- Put a member where its name belongs in an object sorted by name. -/
def insertSorted (name : String) (value : Json) : List (String × Json) → List (String × Json)
  | [] => [(name, value)]
  | (other, content) :: members =>
    if name < other then (name, value) :: (other, content) :: members
    else (other, content) :: insertSorted name value members

mutual

/-- The same value with the members of every object sorted by name. -/
def sorted : Json → Json
  | array items => array (sortedItems items)
  | object members => object (sortedMembers members)
  | j => j

/-- Every item with its objects sorted. -/
def sortedItems : List Json → List Json
  | [] => []
  | item :: items => sorted item :: sortedItems items

/-- Every member with its objects sorted, in the order of the names. -/
def sortedMembers : List (String × Json) → List (String × Json)
  | [] => []
  | (name, value) :: members => insertSorted name (sorted value) (sortedMembers members)

end

end PhasedInduction.Json
