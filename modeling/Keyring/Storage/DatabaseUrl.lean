import Keyring.Error

/-!
# Database URLs

The URL of a database names a file or a database in memory, after the scheme `sqlite`.
Parameters after a question mark say how it is opened.
-/

namespace Keyring

/-- Where a database is and how it is opened. -/
structure DatabaseUrl where
  /-- The path of its file; none for a database in memory. -/
  path : Option String
  isReadOnly : Bool := false
  /-- The name of the layer that reads and writes files, unless it is the usual one. -/
  fileLayer : Option String := none
  deriving DecidableEq, Repr

namespace DatabaseUrl

/-- Replaces every percent sign and the two digits after it by the byte they spell. -/
def percentDecode : Bytes → Bytes
  | 0x25 :: hi :: lo :: rest =>
    match Hex.value? hi, Hex.value? lo with
    | some h, some l => UInt8.ofNat (16 * h + l) :: percentDecode rest
    | _, _ => 0x25 :: percentDecode (hi :: lo :: rest)
  | b :: rest => b :: percentDecode rest
  | [] => []

/-- The parts of a byte string between separators, at least one. -/
def splitBytes (separator : UInt8) : Bytes → List Bytes
  | [] => [[]]
  | b :: rest =>
    match splitBytes separator rest with
    | part :: parts => if b = separator then [] :: part :: parts else (b :: part) :: parts
    | [] => [[b]]

/-- A byte string up to the first separator, and what follows it. -/
def cut (separator : UInt8) (b : Bytes) : Bytes × Bytes :=
  (b.takeWhile (· != separator), (b.dropWhile (· != separator)).drop 1)

/-- A name or a value among parameters; a plus sign stands for a blank. -/
def parameterText (b : Bytes) : Bytes :=
  percentDecode (b.map fun c => if c = 0x2b then 0x20 else c)

/-- The parameters of a URL. -/
def parameters (query : Bytes) : List (Bytes × Bytes) :=
  ((splitBytes 0x26 query).filter (!·.isEmpty)).map fun p =>
    let (name, value) := cut 0x3d p
    (parameterText name, parameterText value)

/-- Applies one parameter. -/
def applyParameter (u : DatabaseUrl) (p : Bytes × Bytes) : Option DatabaseUrl :=
  match p.1.toString?, p.2.toString? with
  | some "mode", some value =>
    match value with
    | "ro" => some { u with isReadOnly := true }
    | "rw" | "rwc" => some u
    | "memory" => some { u with path := none }
    | _ => none
  | some "cache", some value => if value ∈ ["private", "shared"] then some u else none
  | some "immutable", some value => if value ∈ ["true", "1", "false", "0"] then some u else none
  | some "vfs", some value => some { u with fileLayer := some value }
  | _, _ => none

/-- What follows a prefix that may be repeated. -/
def stripAll (start : Bytes) : (fuel : Nat) → Bytes → Bytes
  | 0, b => b
  | fuel + 1, b =>
    if start.isPrefixOf b then stripAll start fuel (b.drop start.length) else b

/-- The bytes of a URL after its scheme. -/
def afterScheme (b : Bytes) : Bytes :=
  let b := stripAll (Bytes.ofString "sqlite://") b.length b
  stripAll (Bytes.ofString "sqlite:") b.length b

/-- The layers that read and write files. -/
def fileLayers : List String :=
  ["unix", "unix-dotfile", "unix-excl", "unix-none"]

/-- Whether the file layer that a URL asks for exists. -/
def hasFileLayer (u : DatabaseUrl) : Bool :=
  u.fileLayer.all (· ∈ fileLayers)

/-- Whether a URL has the scheme of a database. -/
def hasScheme (url : String) : Bool :=
  (Bytes.ofString "sqlite:").isPrefixOf (Bytes.ofString url)

/-- The place a URL names, without its parameters. -/
def ofPlace? (place : Bytes) : Option DatabaseUrl :=
  if place = Bytes.ofString ":memory:" then some { path := none }
  else (percentDecode place).toString?.map fun path => { path := some path }

/-- Reads a URL. -/
def ofText (url : String) : Except WalletError DatabaseUrl :=
  let (place, query) := cut 0x3f (afterScheme (Bytes.ofString url))
  match (ofPlace? place).bind fun u => (parameters query).foldlM applyParameter u with
  | some u => .ok u
  | none => .error (.config .databaseUrl)

end DatabaseUrl

end Keyring
