import Keyring.Toml.Table
import Keyring.Toml.Token

/-!
# TOML documents

A document is a sequence of lines: headers, which start a table, and entries, which add a
value to the table that was started last.
-/

namespace Keyring.Toml

mutual

/-- A value and what follows it; `depth` arrays and tables are around it. -/
def value? (depth : Nat) : (fuel : Nat) → List Char → Option (Value × List Char)
  | 0, _ => none
  | fuel + 1, cs =>
    match cs with
    | '[' :: rest =>
      if depth + 1 < depthLimit then
        (items? (depth + 1) fuel rest).map fun r => (.array r.1, r.2)
      else none
    | '{' :: rest =>
      if depth + 1 < depthLimit then
        match skipBlanks rest with
        | '}' :: rest => some (.table [], rest)
        | rest => do
          let (pairs, rest) ← pairs? (depth + 1) fuel rest
          return (← tableOf? pairs, rest)
      else none
    | '"' :: _ | '\'' :: _ => (string? cs).map fun r => (.string r.1, r.2)
    | 't' :: 'r' :: 'u' :: 'e' :: rest => some (.boolean true, rest)
    | 'f' :: 'a' :: 'l' :: 's' :: 'e' :: rest => some (.boolean false, rest)
    | _ =>
      match time? cs with
      | some rest => some (.time, rest)
      | none => do
        let (n, rest) ← number? cs
        match n with
        | some n => return (.integer n, rest)
        | none => return (.float, rest)

/-- The items of an array up to its closing bracket.  The last one may be followed by a
comma. -/
def items? (depth : Nat) : (fuel : Nat) → List Char → Option (List Value × List Char)
  | 0, _ => none
  | fuel + 1, cs =>
    match skipLines (fuel + 1) cs with
    | ']' :: rest => some ([], rest)
    | cs => do
      let (item, rest) ← value? depth fuel cs
      match skipLines (fuel + 1) rest with
      | ']' :: rest => some ([item], rest)
      | ',' :: rest => do
        let (more, rest) ← items? depth fuel rest
        return (item :: more, rest)
      | _ => none

/-- The entries of a table between braces, at least one, up to the closing brace. -/
def pairs? (depth : Nat) :
    (fuel : Nat) → List Char → Option (List (List String × Value) × List Char)
  | 0, _ => none
  | fuel + 1, cs => do
    let (key, rest) ← key? cs
    let rest ← after? '=' rest
    let (v, rest) ← value? depth fuel (skipBlanks rest)
    match skipBlanks rest with
    | '}' :: rest => some ([(key, v)], rest)
    | ',' :: rest => do
      let (more, rest) ← pairs? depth fuel rest
      return ((key, v) :: more, rest)
    | _ => none

end

/-- A document under construction: its tables, and the header that came last. -/
structure Draft where
  entries : Entries
  header : List String

namespace Draft

/-- Reads one line of a document that is not empty. -/
def line? (d : Draft) (fuel : Nat) (cs : List Char) : Option (Draft × List Char) :=
  match cs with
  | '[' :: '[' :: rest => do
    let (key, rest) ← key? rest
    let rest ← lineEnd? (← after? ']' (← after? ']' rest))
    return (⟨← Entries.along Entries.defineArrayTable key d.entries, key⟩, rest)
  | '[' :: rest => do
    let (key, rest) ← key? rest
    let rest ← lineEnd? (← after? ']' rest)
    return (⟨← Entries.along Entries.defineTable key d.entries, key⟩, rest)
  | _ => do
    let (key, rest) ← key? cs
    let (v, rest) ← value? 0 fuel (skipBlanks (← after? '=' rest))
    let rest ← lineEnd? rest
    return ({ d with entries := ← Entries.addUnder v key d.header d.entries }, rest)

/-- Reads the lines of a document. -/
def lines? (d : Draft) : (fuel : Nat) → List Char → Option Draft
  | 0, _ => none
  | fuel + 1, cs =>
    match skipBlanks cs with
    | [] => some d
    | cs =>
      match lineEnd? cs with
      | some rest => lines? d fuel rest
      | none => do
        let (d, rest) ← d.line? (fuel + 1) cs
        lines? d fuel rest

end Draft

/-- The text without a byte order mark at its front. -/
def dropMark : List Char → List Char
  | '\ufeff' :: rest => rest
  | cs => cs

/-- Reads a document; its value is a table.  Every line takes a character, and so does
every level of a value, which bounds the number of calls. -/
def document? (text : String) : Option Value := do
  let cs := dropMark text.toList
  let d ← Draft.lines? ⟨[], []⟩ (2 * cs.length + 2) cs
  return .table (entryValues d.entries)

end Keyring.Toml
