import Keyring.Json.Value

/-!
# Values with sorted members

Where the order of members carries no meaning, they are written in ascending order of
their names.
-/

namespace Keyring.Json.Value

/-- Puts a member before the first one with a greater name. -/
def insertMember (m : String × Value) : List (String × Value) → List (String × Value)
  | [] => [m]
  | n :: rest => if m.1 < n.1 then m :: n :: rest else n :: insertMember m rest

mutual

/-- A value with all members in ascending order. -/
def sorted : Value → Value
  | .array items => .array (sortedItems items)
  | .object members => .object (sortedMembers members)
  | .null => .null
  | .bool b => .bool b
  | .number n => .number n
  | .string s => .string s

def sortedItems : List Value → List Value
  | [] => []
  | item :: rest => sorted item :: sortedItems rest

def sortedMembers : List (String × Value) → List (String × Value)
  | [] => []
  | (name, item) :: rest => insertMember (name, sorted item) (sortedMembers rest)

end

end Keyring.Json.Value
