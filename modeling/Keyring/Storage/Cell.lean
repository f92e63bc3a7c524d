import Keyring.Text.Blank
import Keyring.Text.Decimal
import Keyring.Wallet.Record

/-!
# Columns and cells

The rows of a table hold a cell for every column of a wallet record.  A column prefers
one kind of cell and turns others into it if it can; what it cannot turn it keeps.  So a
statement may put anything into a row, and reading a record may fail.
-/

namespace Keyring

/-- What a row holds in a column. -/
inductive Cell
  | null
  | integer (n : Int)
  | text (s : String)
  | blob (b : Bytes)
  /-- A point in time as it was stored. -/
  | time (t : Timestamp)
  deriving DecidableEq, Repr

/-- The columns of the table of wallets. -/
inductive Column
  | id | wallet | mnemonic | fingerprint | encryptedMnemonic | isHot | isEnabled
  | createdAt | updatedAt
  deriving DecidableEq, Repr

namespace Column

/-- All columns in their order. -/
def all : List Column :=
  [id, wallet, mnemonic, fingerprint, encryptedMnemonic, isHot, isEnabled, createdAt, updatedAt]

/-- The name of a column. -/
def name : Column → String
  | id => "id"
  | wallet => "wallet_uuid"
  | mnemonic => "mnemonic_uuid"
  | fingerprint => "mnemonic_hash"
  | encryptedMnemonic => "encrypted_mnemonic"
  | isHot => "is_hot"
  | isEnabled => "is_enabled"
  | createdAt => "created_at"
  | updatedAt => "updated_at"

/-- The kind of cells a column prefers. -/
inductive Preference
  | text
  | number
  | none
  deriving DecidableEq

def preference : Column → Preference
  | wallet | mnemonic | fingerprint => .text
  | encryptedMnemonic => .none
  | id | isHot | isEnabled | createdAt | updatedAt => .number

/-- Whether no two rows may have the same cell in a column. -/
def isUnique : Column → Bool
  | id | wallet => true
  | _ => false

end Column

namespace Cell

/-- The text of a stored point in time. -/
def timeText (t : Timestamp) : String :=
  String.ofList (t.localText ++ ['+', '0', '0', ':', '0', '0'])

/-- The integer that a text spells, white space around it apart. -/
def integerText? (s : String) : Option Int :=
  let within (n : Int) : Option Int :=
    if Int64.minValue.toInt ≤ n ∧ n ≤ Int64.maxValue.toInt then some n else none
  match (Text.trim s).toList with
  | '-' :: ds => (Text.natural? ds).bind fun n => within (-n)
  | '+' :: ds => (Text.natural? ds).bind fun n => within n
  | ds => (Text.natural? ds).bind fun n => within n

/-- A cell as a column keeps it. -/
def adapt (column : Column) (c : Cell) : Cell :=
  match column.preference, c with
  | .text, .integer n => .text (toString n)
  | .text, .time t => .text (timeText t)
  | .number, .text s =>
    match integerText? s with
    | some n => .integer n
    | none => c
  | _, _ => c

/-- Whether two cells are equal where a statement compares them. -/
def sameAs (a b : Cell) : Bool :=
  let plain (c : Cell) : Cell :=
    match c with
    | .time t => .text (timeText t)
    | c => c
  a != .null && plain a == plain b

/-! ## Reading cells -/

def toUuid? : Cell → Option Uuid
  | .text s => Uuid.ofText? s
  | _ => none

def toText? : Cell → Option String
  | .text s => some s
  | _ => none

def toBytes? : Cell → Option Bytes
  | .blob b => some b
  | .text s => some (Bytes.ofString s)
  | _ => none

/-- A truth value: any integer but zero is true. -/
def toBool? : Cell → Option Bool
  | .integer n => some (n ≠ 0)
  | _ => none

def toInteger? : Cell → Option Int
  | .integer n => some n
  | _ => none

/-- A point in time: as stored, as a text, or in seconds since the start of 1970. -/
def toTimestamp? : Cell → Option Timestamp
  | .time t => some t
  | .text s => Timestamp.Read.stored? s
  | .integer n => Timestamp.ofSeconds? n
  | _ => none

end Cell

/-- A row of the table of wallets. -/
abbrev Row :=
  Column → Cell

namespace Row

/-- The row of a record under an id of its own. -/
def ofRecord (id : Int) (r : WalletRecord) : Row
  | .id => .integer id
  | .wallet => .text r.wallet.text
  | .mnemonic => .text r.mnemonic.text
  | .fingerprint => .text r.fingerprint
  | .encryptedMnemonic => .blob r.encryptedMnemonic
  | .isHot => .integer (if r.isHot then 1 else 0)
  | .isEnabled => .integer (if r.isEnabled then 1 else 0)
  | .createdAt => .time r.createdAt
  | .updatedAt => .time r.updatedAt

/-- The record that a row holds. -/
def record? (row : Row) : Option WalletRecord := do
  return {
    id := ← (row .id).toInteger?
    wallet := ← (row .wallet).toUuid?
    mnemonic := ← (row .mnemonic).toUuid?
    fingerprint := ← (row .fingerprint).toText?
    encryptedMnemonic := ← (row .encryptedMnemonic).toBytes?
    isHot := ← (row .isHot).toBool?
    isEnabled := ← (row .isEnabled).toBool?
    createdAt := ← (row .createdAt).toTimestamp?
    updatedAt := ← (row .updatedAt).toTimestamp?
  }

/-- Puts a cell into a column. -/
def set (row : Row) (column : Column) (c : Cell) : Row := fun other =>
  if other = column then c.adapt column else row other

end Row

end Keyring
