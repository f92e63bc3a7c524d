/-!
# TOML tables

The lines of a document define tables in three ways: by a header, as the parent of a
table with a header, or by a dotted key.  Which way a table came into being decides what
may still be added to it, so tables under construction remember it.  A finished document
is a plain value.
-/

namespace Keyring.Toml

/-- A value of a document.  Floating point numbers and times are not looked into. -/
inductive Value
  | string (s : String)
  | integer (n : Int)
  | float
  | boolean (b : Bool)
  | time
  | array (items : List Value)
  | table (entries : List (String × Value))

/-- How a table came into being. -/
inductive Origin
  | header
  /-- A table that only headers of tables inside of it have named so far. -/
  | parent
  | dotted
  deriving DecidableEq

/-- An entry of a table under construction. -/
inductive Node
  | value (v : Value)
  | table (origin : Origin) (entries : List (String × Node))
  /-- The tables of an array, the last one first. -/
  | tables (items : List (List (String × Node)))

/-- The entries of a table under construction. -/
abbrev Entries := List (String × Node)

namespace Entries

/-- Replaces the entry of a key. -/
def replace (es : Entries) (key : String) (node : Node) : Entries :=
  es.map fun e => if e.1 = key then (key, node) else e

/-- Adds a value under a dotted key.  `accepts` says whether the table takes values for
keys of one part.  A table with a header takes none under dotted keys that lead to it. -/
def add (accepts : Bool) (v : Value) : (path : List String) → Entries → Option Entries
  | [], _ => none
  | [key], es =>
    if accepts && (es.lookup key).isNone then some (es ++ [(key, .value v)]) else none
  | key :: rest, es =>
    match es.lookup key with
    | none => (add true v rest []).map fun inner => es ++ [(key, .table .dotted inner)]
    | some (.table .header _) => none
    | some (.table origin inner) =>
      (add (origin = .dotted) v rest inner).map fun inner =>
        es.replace key (.table origin inner)
    | some (.tables (last :: before)) =>
      (add false v rest last).map fun last => es.replace key (.tables (last :: before))
    | some _ => none

/-- Follows the path of a header and changes the table in front of its last part.  Tables
that are missing on the way are made; of an array the last table is meant. -/
def along (change : String → Entries → Option Entries) :
    (path : List String) → Entries → Option Entries
  | [], _ => none
  | [key], es => change key es
  | key :: rest, es =>
    match es.lookup key with
    | none => (along change rest []).map fun inner => es ++ [(key, .table .parent inner)]
    | some (.table origin inner) =>
      (along change rest inner).map fun inner => es.replace key (.table origin inner)
    | some (.tables (last :: before)) =>
      (along change rest last).map fun last => es.replace key (.tables (last :: before))
    | some _ => none

/-- Defines the table of a header.  It must be new, or a parent of tables that have
headers. -/
def defineTable (key : String) (es : Entries) : Option Entries :=
  match es.lookup key with
  | none => some (es ++ [(key, .table .header [])])
  | some (.table .parent inner) => some (es.replace key (.table .header inner))
  | some _ => none

/-- Starts another table of an array. -/
def defineArrayTable (key : String) (es : Entries) : Option Entries :=
  match es.lookup key with
  | none => some (es ++ [(key, .tables [[]])])
  | some (.tables items) => some (es.replace key (.tables ([] :: items)))
  | some _ => none

/-- Adds a value under a dotted key to the table that a header started. -/
def addUnder (v : Value) (path : List String) : (header : List String) → Entries → Option Entries
  | [], es => add true v path es
  | key :: rest, es =>
    match es.lookup key with
    | some (.table origin inner) =>
      (addUnder v path rest inner).map fun inner => es.replace key (.table origin inner)
    | some (.tables (last :: before)) =>
      (addUnder v path rest last).map fun last => es.replace key (.tables (last :: before))
    | _ => none

end Entries

mutual

/-- The value of an entry. -/
def Node.toValue : Node → Value
  | .value v => v
  | .table _ entries => .table (entryValues entries)
  | .tables items => .array (tableValues items).reverse

def entryValues : List (String × Node) → List (String × Value)
  | [] => []
  | (key, node) :: rest => (key, node.toValue) :: entryValues rest

def tableValues : List (List (String × Node)) → List Value
  | [] => []
  | entries :: rest => .table (entryValues entries) :: tableValues rest

end

/-- The table of dotted keys and their values. -/
def tableOf? (pairs : List (List String × Value)) : Option Value := do
  let es ← pairs.foldlM (fun (es : Entries) p => es.add true p.2 p.1) []
  return .table (entryValues es)

end Keyring.Toml
