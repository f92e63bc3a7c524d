import Keyring.Json.Number
import Keyring.Json.Text

/-!
# JSON documents

A document is read into a tree that keeps numbers and strings as they are written.
That is enough to skip a value nobody asked for: nesting may be of any depth, numbers
of any size, and the bytes of a string are not looked at.  Values that are read are
held to more; `Tree.isStrict` is what a document has to satisfy as a whole where all
of it is read.
-/

namespace Keyring.Json

/-- A document, or a part of one. -/
inductive Tree
  | null
  | bool (b : Bool)
  | number (text : NumberText)
  | string (raw : Bytes)
  | array (items : List Tree)
  | object (members : List (Bytes × Tree))

/-- Whether a byte is white space between values. -/
def isBlank (b : UInt8) : Bool :=
  b == 0x20 || b == 0x09 || b == 0x0a || b == 0x0d

/-- The bytes after leading white space. -/
def skip (bs : Bytes) : Bytes :=
  bs.dropWhile isBlank

/-- Whether a byte is a decimal digit. -/
def isDigit (b : UInt8) : Bool :=
  0x30 ≤ b && b ≤ 0x39

namespace Scan

/-- Digits at the front, at least one, and what follows. -/
def digits (bs : Bytes) : Option (Bytes × Bytes) :=
  let front := bs.takeWhile isDigit
  if front.isEmpty then none else some (front, bs.dropWhile isDigit)

/-- Whole digits: a zero alone, or digits without leading zeros. -/
def whole (bs : Bytes) : Option (Bytes × Bytes) := do
  let (front, rest) ← digits bs
  match front with
  | 0x30 :: _ :: _ => none
  | _ => some (front, rest)

/-- A fraction, if there is a point. -/
def fraction (bs : Bytes) : Option (Option Bytes × Bytes) :=
  match bs with
  | 0x2e :: rest => do
    let (front, rest) ← digits rest
    return (some front, rest)
  | _ => some (none, bs)

/-- An exponent, if there is its letter. -/
def exponent (bs : Bytes) : Option (Option (Bool × Bytes) × Bytes) :=
  match bs with
  | e :: rest =>
    if e = 0x65 ∨ e = 0x45 then do
      let (negative, rest) :=
        match rest with
        | 0x2b :: rest => (false, rest)
        | 0x2d :: rest => (true, rest)
        | _ => (false, rest)
      let (front, rest) ← digits rest
      return (some (negative, front), rest)
    else some (none, bs)
  | [] => some (none, [])

/-- A number and what follows. -/
def number (bs : Bytes) : Option (NumberText × Bytes) := do
  let (negative, rest) :=
    match bs with
    | 0x2d :: rest => (true, rest)
    | _ => (false, bs)
  let (whole, rest) ← whole rest
  let (fraction, rest) ← fraction rest
  let (exponent, rest) ← exponent rest
  return (⟨negative, whole, fraction, exponent⟩, rest)

/-- The inside of a string up to its closing quotation mark, and what follows.  Escapes
have to be well formed and control characters are refused. -/
def string : Bytes → Option (Bytes × Bytes)
  | [] => none
  | 0x22 :: rest => some ([], rest)
  | 0x5c :: 0x75 :: a :: b :: c :: d :: rest => do
    let _ ← Text.hex4? a b c d
    let (inside, rest) ← string rest
    return (0x5c :: 0x75 :: a :: b :: c :: d :: inside, rest)
  | 0x5c :: e :: rest => do
    let _ ← Text.simpleEscape? e
    let (inside, rest) ← string rest
    return (0x5c :: e :: inside, rest)
  | b :: rest =>
    if b = 0x5c ∨ b < 0x20 then none
    else do
      let (inside, rest) ← string rest
      return (b :: inside, rest)

mutual

/-- A value, white space before it skipped, and what follows. -/
def value : Nat → Bytes → Option (Tree × Bytes)
  | 0, _ => none
  | fuel + 1, bs =>
    match skip bs with
    | 0x7b :: rest =>
      match skip rest with
      | 0x7d :: rest => some (.object [], rest)
      | rest => do
        let (members, rest) ← members fuel rest
        return (.object members, rest)
    | 0x5b :: rest =>
      match skip rest with
      | 0x5d :: rest => some (.array [], rest)
      | rest => do
        let (items, rest) ← items fuel rest
        return (.array items, rest)
    | 0x22 :: rest => do
      let (raw, rest) ← string rest
      return (.string raw, rest)
    | 0x6e :: 0x75 :: 0x6c :: 0x6c :: rest => some (.null, rest)
    | 0x74 :: 0x72 :: 0x75 :: 0x65 :: rest => some (.bool true, rest)
    | 0x66 :: 0x61 :: 0x6c :: 0x73 :: 0x65 :: rest => some (.bool false, rest)
    | rest => do
      let (text, rest) ← number rest
      return (.number text, rest)

/-- The items of an array, at least one, with the closing bracket. -/
def items : Nat → Bytes → Option (List Tree × Bytes)
  | 0, _ => none
  | fuel + 1, bs => do
    let (item, rest) ← value fuel bs
    match skip rest with
    | 0x2c :: rest => do
      let (more, rest) ← items fuel rest
      return (item :: more, rest)
    | 0x5d :: rest => some ([item], rest)
    | _ => none

/-- The members of an object, at least one, with the closing brace. -/
def members : Nat → Bytes → Option (List (Bytes × Tree) × Bytes)
  | 0, _ => none
  | fuel + 1, bs =>
    match skip bs with
    | 0x22 :: rest => do
      let (name, rest) ← string rest
      match skip rest with
      | 0x3a :: rest => do
        let (item, rest) ← value fuel rest
        match skip rest with
        | 0x2c :: rest => do
          let (more, rest) ← members fuel rest
          return ((name, item) :: more, rest)
        | 0x7d :: rest => some ([(name, item)], rest)
        | _ => none
      | _ => none
    | _ => none

end

end Scan

namespace Tree

/-- Reads a document.  Every call of the scanner but two for each level of nesting takes a
byte, which bounds the number of calls. -/
def ofBytes? (bs : Bytes) : Option Tree :=
  match Scan.value (2 * bs.length + 2) bs with
  | some (tree, rest) => if (skip rest).isEmpty then some tree else none
  | none => none

mutual

/-- Whether a document can be read as a whole: at most `depth` levels of nesting, every
string valid and every number in range. -/
def isStrict : (depth : Nat) → Tree → Bool
  | _, .null => true
  | _, .bool _ => true
  | _, .number text => text.inRange
  | _, .string raw => (Text.decode? raw).isSome
  | 0, .array _ => false
  | 0, .object _ => false
  | depth + 1, .array items => allStrict depth items
  | depth + 1, .object members => membersStrict depth members

def allStrict : (depth : Nat) → List Tree → Bool
  | _, [] => true
  | depth, item :: rest => isStrict depth item && allStrict depth rest

def membersStrict : (depth : Nat) → List (Bytes × Tree) → Bool
  | _, [] => true
  | depth, (name, item) :: rest =>
    (Text.decode? name).isSome && isStrict depth item && membersStrict depth rest

end

/-- The levels of nesting that a document read as a whole may have. -/
def depthLimit : Nat :=
  127

/-- Reads a document all of which has to be readable. -/
def ofStrictBytes? (bs : Bytes) : Option Tree :=
  (ofBytes? bs).filter (isStrict depthLimit)

end Tree

end Keyring.Json
