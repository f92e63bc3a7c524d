import Keyring.Storage.DatabaseUrl
import Keyring.Storage.Statement

/-!
# Wallets in a database

A repository over one table.  The table comes into being when the repository is migrated.
Rows get ascending ids that are never used again, a wallet has one row at most, and
records are read from whatever the cells of a row hold.
-/

namespace Keyring

/-- The table of wallets. -/
structure WalletTable where
  rows : List Row := []
  /-- The greatest id that was ever given to a row. -/
  lastId : Int := 0

/-- A repository in a database. -/
structure RelationalRepository where
  table : Option WalletTable := none
  isReadOnly : Bool := false
  /-- The number of rows that the last change concerned. -/
  lastChanges : Nat := 0

namespace RelationalRepository

/-- The error that stands for a failure of the database with the number `code`. -/
def databaseError (code : Nat) (text : String) : WalletError :=
  .storage ("error returned from database: (code: " ++ toString code ++ ") " ++ text)

/-- The table is not there. -/
def noTable : WalletError :=
  databaseError 1 ("no such table: " ++ Statement.tableName)

/-- A wallet has a row already. -/
def secondRow : WalletError :=
  databaseError 2067
    ("UNIQUE constraint failed: " ++ Statement.tableName ++ "." ++ Column.wallet.name)

/-- Opens the database of a URL.  `opens` says whether the file of a path can be opened;
a file that is to be read only is never made. -/
def connect (url : String) (maxConnections : Option UInt32) (opens : String → Bool) :
    Except WalletError RelationalRepository := do
  let u ← DatabaseUrl.ofText url
  if !DatabaseUrl.hasScheme url || !u.hasFileLayer then .error (.storage "no database")
  else
    match u.path with
    | none => return { isReadOnly := u.isReadOnly }
    | some path =>
      if maxConnections = some 0 then
        .error (.storage "pool timed out while waiting for an open connection")
      else if opens path && !u.isReadOnly then return {}
      else .error (databaseError 14 "unable to open database file")

/-- Makes the table unless there is one. -/
def migrate (r : RelationalRepository) : Except WalletError RelationalRepository :=
  if r.isReadOnly then .error (databaseError 8 "attempt to write a readonly database")
  else .ok { r with table := some (r.table.getD {}) }

/-- The table, which has to be there. -/
def openTable (r : RelationalRepository) : Except WalletError WalletTable :=
  match r.table with
  | some t => .ok t
  | none => .error noTable

/-- The rows of a wallet. -/
def rowsOf (t : WalletTable) (wallet : Uuid) : List Row :=
  t.rows.filter fun row => row .wallet == .text wallet.text

/-- The record of a wallet. -/
def get (r : RelationalRepository) (wallet : Uuid) : Except WalletError WalletRecord := do
  let t ← r.openTable
  match rowsOf t wallet with
  | [] => .error (.walletNotFound wallet.text)
  | row :: _ =>
    match row.record? with
    | some record => return record
    | none => .error (.storage "undecodable column")

/-- The id of the next row. -/
def nextId (t : WalletTable) : Int :=
  (t.rows.filterMap fun row => (row .id).toInteger?).foldl max t.lastId + 1

/-- Whether rows may stand together in the table: no cell is null, and no two rows share a
cell that has to be unique. -/
def isConsistent (rows : List Row) : Bool :=
  rows.all (fun row => Column.all.all fun c => row c != .null)
    && rows.all (fun row => (row .id).toInteger?.isSome)
    && (Column.all.filter Column.isUnique).all fun c =>
      (rows.map (· c)).eraseDups.length == rows.length

/-- Stores a record; answers the id of its row.  A failure concerns no row. -/
def insert (r : RelationalRepository) (record : WalletRecord) :
    Except WalletError Int × RelationalRepository :=
  match r.openTable with
  | .error e => (.error e, r)
  | .ok t =>
    let id := nextId t
    let rows := t.rows ++ [Row.ofRecord id record]
    if isConsistent rows then
      (.ok id, { r with table := some ⟨rows, id⟩, lastChanges := 1 })
    else (.error secondRow, { r with lastChanges := 0 })

/-- Changes whether a wallet may be used; the change happens at the time `now`. -/
def setEnabled (r : RelationalRepository) (wallet : Uuid) (enabled : Bool) (now : Timestamp) :
    Except WalletError Unit × RelationalRepository :=
  match r.openTable with
  | .error e => (.error e, r)
  | .ok t =>
    let change (row : Row) : Row :=
      if row .wallet == .text wallet.text then
        (row.set .isEnabled (.integer (if enabled then 1 else 0))).set .updatedAt (.time now)
      else row
    let count := (rowsOf t wallet).length
    let r := { r with table := some { t with rows := t.rows.map change }, lastChanges := count }
    if count = 0 then (.error (.walletNotFound wallet.text), r) else (.ok (), r)

/-! ## Statements -/

/-- Whether a row meets conditions. -/
def holds (conditions : List Assignment) (row : Row) : Bool :=
  conditions.all fun c => (row c.1).sameAs (c.2.adapt c.1)

/-- Makes changes to a row. -/
def change (changes : List Assignment) (row : Row) : Row :=
  changes.foldl (fun row c => row.set c.1 c.2) row

/-- Runs a statement; answers the number of rows that it concerned.  Dropping the table
concerns none and answers the number of the change before it. -/
def execute (r : RelationalRepository) : Statement → Except WalletError Nat × RelationalRepository
  | .drop ifExists =>
    match r.openTable with
    | .ok _ => (.ok r.lastChanges, { r with table := none })
    | .error e => (if ifExists then .ok r.lastChanges else .error e, r)
  | .delete conditions =>
    match r.openTable with
    | .error e => (.error e, r)
    | .ok t =>
      let count := (t.rows.filter (holds conditions)).length
      let rows := t.rows.filter (!holds conditions ·)
      (.ok count, { r with table := some { t with rows }, lastChanges := count })
  | .update changes conditions =>
    match r.openTable with
    | .error e => (.error e, r)
    | .ok t =>
      let count := (t.rows.filter (holds conditions)).length
      let rows := t.rows.map fun row => if holds conditions row then change changes row else row
      if isConsistent rows then
        (.ok count, { r with table := some { t with rows }, lastChanges := count })
      else (.error (databaseError 19 "constraint failed"), { r with lastChanges := 0 })

/-- Runs a statement given as text. -/
def executeText (r : RelationalRepository) (s : String) :
    Except WalletError Nat × RelationalRepository :=
  match Statement.ofText? s with
  | some statement => r.execute statement
  | none => (.error (databaseError 1 "syntax error"), r)

end RelationalRepository

end Keyring
