import Keyring.Error
import Keyring.Wallet.Record

/-!
# Wallets in memory

A repository that keeps one record for every wallet.
-/

namespace Keyring

/-- The records of wallets, at most one for each. -/
structure MemoryRepository where
  records : List WalletRecord
  deriving DecidableEq, Repr

namespace MemoryRepository

def empty : MemoryRepository :=
  ⟨[]⟩

/-- The number of records. -/
def size (r : MemoryRepository) : Nat :=
  r.records.length

/-- The record of a wallet, if there is one. -/
def find? (r : MemoryRepository) (wallet : Uuid) : Option WalletRecord :=
  r.records.find? (·.wallet == wallet)

/-- The record of a wallet, or an error. -/
def get (r : MemoryRepository) (wallet : Uuid) : Except WalletError WalletRecord :=
  match r.find? wallet with
  | some record => .ok record
  | none => .error (.walletNotFound wallet.text)

/-- Stores a record in place of the one that its wallet had.  Its id is one more than the
number of records before. -/
def insert (r : MemoryRepository) (record : WalletRecord) : Int × MemoryRepository :=
  let id : Int := r.size + 1
  (id, ⟨r.records.filter (·.wallet != record.wallet) ++ [{ record with id }]⟩)

/-- Changes whether a wallet may be used; the change happens at the time `now`. -/
def setEnabled (r : MemoryRepository) (wallet : Uuid) (enabled : Bool) (now : Timestamp) :
    Except WalletError MemoryRepository := do
  let _ ← r.get wallet
  return ⟨r.records.map fun record =>
    if record.wallet = wallet then { record with isEnabled := enabled, updatedAt := now }
    else record⟩

end MemoryRepository

end Keyring
