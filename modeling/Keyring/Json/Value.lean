import Keyring.Json.Text

/-!
# Writing JSON

Values are written without white space, members in the order given.  A second form,
meant for people, puts every item on a line of its own.
-/

namespace Keyring.Json

/-- A value to be written. -/
inductive Value
  | null
  | bool (b : Bool)
  | number (n : Int)
  | string (s : String)
  | array (items : List Value)
  | object (members : List (String × Value))

namespace Value

/-- An optional value, `null` for none. -/
def optional {α : Type} (write : α → Value) : Option α → Value
  | none => null
  | some a => write a

def ofNat (n : Nat) : Value :=
  number n

/-- A text between quotation marks. -/
def quoted (s : String) : List Char :=
  '"' :: (Text.escape s.toList ++ ['"'])

mutual

/-- The compact text of a value. -/
def chars : Value → List Char
  | .null => ['n', 'u', 'l', 'l']
  | .bool true => ['t', 'r', 'u', 'e']
  | .bool false => ['f', 'a', 'l', 's', 'e']
  | .number n => (toString n).toList
  | .string s => quoted s
  | .array items => '[' :: (itemChars items ++ [']'])
  | .object members => '{' :: (memberChars members ++ ['}'])

def itemChars : List Value → List Char
  | [] => []
  | [item] => chars item
  | item :: rest => chars item ++ ',' :: itemChars rest

def memberChars : List (String × Value) → List Char
  | [] => []
  | [(name, item)] => quoted name ++ ':' :: chars item
  | (name, item) :: rest => quoted name ++ ':' :: (chars item ++ ',' :: memberChars rest)

end

/-- The compact text of a value. -/
def compact (v : Value) : String :=
  String.ofList v.chars

/-- The bytes of the compact text. -/
def bytes (v : Value) : Bytes :=
  Bytes.ofString v.compact

/-- A new line indented by `depth` steps of two blanks. -/
def newLine (depth : Nat) : List Char :=
  '\n' :: List.replicate (2 * depth) ' '

mutual

/-- The text of a value for people; `depth` is the indentation of its lines. -/
def prettyChars (depth : Nat) : Value → List Char
  | .array [] => ['[', ']']
  | .object [] => ['{', '}']
  | .array items =>
    '[' :: (newLine (depth + 1) ++ prettyItems (depth + 1) items ++ newLine depth ++ [']'])
  | .object members =>
    '{' :: (newLine (depth + 1) ++ prettyMembers (depth + 1) members ++ newLine depth ++ ['}'])
  | .null => chars .null
  | .bool b => chars (.bool b)
  | .number n => chars (.number n)
  | .string s => chars (.string s)

def prettyItems (depth : Nat) : List Value → List Char
  | [] => []
  | [item] => prettyChars depth item
  | item :: rest => prettyChars depth item ++ ',' :: (newLine depth ++ prettyItems depth rest)

def prettyMembers (depth : Nat) : List (String × Value) → List Char
  | [] => []
  | [(name, item)] => quoted name ++ ':' :: ' ' :: prettyChars depth item
  | (name, item) :: rest =>
    quoted name ++ ':' :: ' ' ::
      (prettyChars depth item ++ ',' :: (newLine depth ++ prettyMembers depth rest))

end

/-- The text of a value for people. -/
def pretty (v : Value) : String :=
  String.ofList (v.prettyChars 0)

end Value

end Keyring.Json
