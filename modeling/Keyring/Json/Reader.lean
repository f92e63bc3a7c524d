import Keyring.Json.Tree

/-!
# Reading values from documents

A record is written as an object or as an array of its fields in order.  Fields that
nobody asked for are skipped.  A field that comes twice is refused where a document is
read directly; where a document was read as a whole before, the last one counts.
-/

namespace Keyring.Json

/-- What happens to a field that comes twice. -/
inductive Repeats
  | refused
  | lastWins
  deriving DecidableEq

namespace Tree

/-- The text of a string. -/
def string? : Tree → Option String
  | .string raw => Text.decode? raw
  | _ => none

def bool? : Tree → Option Bool
  | .bool b => some b
  | _ => none

/-- An integer below `bound`. -/
def unsigned? (bound : Nat) : Tree → Option Nat
  | .number text => do
    let n ← text.natural?
    if n < bound then some n else none
  | _ => none

def uint8? (t : Tree) : Option UInt8 :=
  (t.unsigned? UInt8.size).map UInt8.ofNat

def uint32? (t : Tree) : Option UInt32 :=
  (t.unsigned? UInt32.size).map UInt32.ofNat

def uint64? (t : Tree) : Option UInt64 :=
  (t.unsigned? UInt64.size).map UInt64.ofNat

/-- An integer of 64 bits with a sign. -/
def int64? : Tree → Option Int
  | .number text => do
    let n ← text.integer?
    if Int64.minValue.toInt ≤ n ∧ n ≤ Int64.maxValue.toInt then some n else none
  | _ => none

/-- A list whose items `read` accepts. -/
def list? {α : Type} (read : Tree → Option α) : Tree → Option (List α)
  | .array items => items.mapM read
  | _ => none

/-- A value or `null`. -/
def optional? {α : Type} (read : Tree → Option α) : Tree → Option (Option α)
  | .null => some none
  | t => (read t).map some

/-- One of a set of names, written as a string or as an object whose only member has the
name and the value `null`. -/
def choice? {α : Type} (ofName : String → Option α) : Tree → Option α
  | .string raw => (Text.decode? raw).bind ofName
  | .object [(name, .null)] => (Text.decode? name).bind ofName
  | _ => none

/-- The values of a field among decoded members. -/
def valuesOf (name : String) (members : List (String × Tree)) : List Tree :=
  (members.filter (·.1 == name)).map (·.2)

/-- The value of a field, if it is there. -/
def slot? (repeats : Repeats) (members : List (String × Tree)) (name : String) :
    Option (Option Tree) :=
  match valuesOf name members with
  | [] => some none
  | [t] => some (some t)
  | ts => if repeats = .lastWins then some ts.getLast? else none

/-- The members of an object with their names decoded. -/
def decodeMembers? (members : List (Bytes × Tree)) : Option (List (String × Tree)) :=
  members.mapM fun m => do return (← Text.decode? m.1, m.2)

/-- The fields of a record, in the order of `names`. -/
def record? (repeats : Repeats) (names : List String) : Tree → Option (List (Option Tree))
  | .object members => do names.mapM (slot? repeats (← decodeMembers? members))
  | .array items =>
    if items.length ≤ names.length then
      some (items.map some ++ List.replicate (names.length - items.length) none)
    else none
  | _ => none

/-- A field that has to be there. -/
def required? {α : Type} (read : Tree → Option α) (slot : Option Tree) : Option α :=
  slot.bind read

/-- A field with a default. -/
def defaulted? {α : Type} (default : α) (read : Tree → Option α) : Option Tree → Option α
  | none => some default
  | some t => read t

/-- An optional field: it may be missing or `null`. -/
def open? {α : Type} (read : Tree → Option α) : Option Tree → Option (Option α) :=
  defaulted? none (optional? read)

end Tree

end Keyring.Json
