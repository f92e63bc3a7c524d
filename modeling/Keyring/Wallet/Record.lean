import Keyring.Json.Reader
import Keyring.Json.Value
import Keyring.Timestamp.Reader
import Keyring.Uuid

/-!
# Stored wallets

The record of a wallet holds its encrypted mnemonic, the fingerprint of the mnemonic,
and the flags under which it may be used.
-/

namespace Keyring

open Json

/-- The record of a wallet. -/
structure WalletRecord where
  id : Int
  wallet : Uuid
  /-- Identifies the mnemonic itself; a pool unit is bound to one. -/
  mnemonic : Uuid
  /-- The fingerprint of the mnemonic phrase. -/
  fingerprint : String
  encryptedMnemonic : Bytes
  isHot : Bool
  isEnabled : Bool
  createdAt : Timestamp
  updatedAt : Timestamp
  deriving DecidableEq, Repr

namespace WalletRecord

def toValue (r : WalletRecord) : Value :=
  .object
    [("id", .number r.id), ("wallet_uuid", .string r.wallet.text),
     ("mnemonic_uuid", .string r.mnemonic.text), ("mnemonic_hash", .string r.fingerprint),
     ("encrypted_mnemonic", .array (r.encryptedMnemonic.map fun b => .ofNat b.toNat)),
     ("is_hot", .bool r.isHot), ("is_enabled", .bool r.isEnabled),
     ("created_at", .string r.createdAt.text), ("updated_at", .string r.updatedAt.text)]

def uuid? (t : Tree) : Option Uuid :=
  t.string?.bind Uuid.ofText?

def timestamp? (t : Tree) : Option Timestamp :=
  t.string?.bind Timestamp.Read.relaxed?

/-- The names of the fields. -/
def fieldNames : List String :=
  ["id", "wallet_uuid", "mnemonic_uuid", "mnemonic_hash", "encrypted_mnemonic", "is_hot",
   "is_enabled", "created_at", "updated_at"]

def ofTree? (t : Tree) : Option WalletRecord := do
  match ← t.record? .refused fieldNames with
  | [id, wallet, mnemonic, fingerprint, blob, hot, enabled, created, updated] =>
    return {
      id := ← Tree.required? Tree.int64? id
      wallet := ← Tree.required? uuid? wallet
      mnemonic := ← Tree.required? uuid? mnemonic
      fingerprint := ← Tree.required? Tree.string? fingerprint
      encryptedMnemonic := ← Tree.required? (Tree.list? Tree.uint8?) blob
      isHot := ← Tree.required? Tree.bool? hot
      isEnabled := ← Tree.required? Tree.bool? enabled
      createdAt := ← Tree.required? timestamp? created
      updatedAt := ← Tree.required? timestamp? updated
    }
  | _ => none

end WalletRecord

end Keyring
