import Keyring.Pool.Clock
import Keyring.Storage.Memory

/-!
# Hosts

A host keeps one pool unit for every wallet in use, so that the operations on a wallet
are served one after another.  Units that were handed out stay in the hands of their
callers after the host has let go of them; the host shuts such units down first.
-/

namespace Keyring

/-- A host with its repository and its clock. -/
structure Host where
  context : PoolContext
  /-- Whether units can be started at all. -/
  hasRuntime : Bool := true
  repository : MemoryRepository := .empty
  /-- Every unit that was ever made; a unit is named by its place. -/
  units : List PoolUnit := []
  /-- The units that the host keeps, by wallet. -/
  registered : List (Uuid × Nat) := []
  now : Nat := 0

namespace Host

/-- Finds records in the repository of the host. -/
def source (h : Host) : RecordSource :=
  h.repository.get

/-- Changes one unit. -/
def setUnit (h : Host) (id : Nat) (u : PoolUnit) : Host :=
  { h with units := h.units.set id u }

/-- The message for a unit that cannot be started. -/
def noRuntime : String :=
  "pool unit needs a tokio runtime: there is no reactor running, must be called from the "
    ++ "context of a Tokio 1.x runtime"

/-- Makes a unit, unloaded and open. -/
def create (h : Host) (wallet mnemonic : Uuid) : Except WalletError (Nat × Host) :=
  if h.hasRuntime then
    .ok (h.units.length, { h with units := h.units ++ [{ wallet, mnemonic }] })
  else .error (.internal noRuntime)

/-- The unit that the host keeps for a wallet. -/
def lookup (h : Host) (wallet : Uuid) : Option Nat :=
  h.registered.lookup wallet

/-- The number of units that the host keeps. -/
def size (h : Host) : Nat :=
  h.registered.length

/-- The unit for a wallet, made when it is first asked for.  A unit for another mnemonic
of the wallet is no match. -/
def getOrCreate (h : Host) (wallet mnemonic : Uuid) : Except WalletError (Nat × Host) :=
  match h.lookup wallet with
  | some id =>
    if (h.units[id]?.map (·.mnemonic)) = some mnemonic then .ok (id, h)
    else .error (PoolUnit.foreignMnemonic wallet mnemonic)
  | none => do
    let (id, h) ← h.create wallet mnemonic
    return (id, { h with registered := (wallet, id) :: h.registered })

/-- Shuts one unit down. -/
def shutdownUnit (h : Host) (id : Nat) : Host :=
  match h.units[id]? with
  | some u => h.setUnit id u.shutdown
  | none => h

/-- Lets go of the unit of a wallet and shuts it down; answers whether there was one. -/
def remove (h : Host) (wallet : Uuid) : Bool × Host :=
  match h.lookup wallet with
  | some id =>
    let kept := h.registered.filter (·.1 != wallet)
    (true, { h.shutdownUnit id with registered := kept })
  | none => (false, h)

/-- Lets go of all units and shuts them down. -/
def shutdown (h : Host) : Host :=
  { h.registered.foldl (fun h entry => h.shutdownUnit entry.2) h with registered := [] }

/-- Lets a unit do what it is asked to do; there is no answer if that crashes.  Nobody holds a
unit that was never made. -/
def operate (h : Host) (id : Nat) (op : Keychain.Operation) :
    Option (Except WalletError Keychain.Answer) × Host :=
  match h.units[id]? with
  | some u =>
    let (answer, u) := u.attempt h.context h.source h.now op
    (answer, h.setUnit id u)
  | none => (some (.error (.internal "no such unit")), h)

/-- Unloads a unit; answers whether it was loaded. -/
def unload (h : Host) (id : Nat) : Bool × Host :=
  match h.units[id]? with
  | some u => (u.unload.1, h.setUnit id u.unload.2)
  | none => (false, h)

/-- Time passes, and units that are idle by then are unloaded. -/
def advance (h : Host) (span : Nat) : Host :=
  let now := h.now + span
  { h with now, units := h.units.map fun u => (u.unloadIfIdle now).2 }

/-- How often a blob was handed to the decryptor. -/
def decryptions (h : Host) : Nat :=
  h.units.foldl (fun count u => count + u.decrypted.length) 0

/-- Stores a record; answers its id. -/
def put (h : Host) (record : WalletRecord) : Int × Host :=
  let (id, repository) := h.repository.insert record
  (id, { h with repository })

/-- Changes whether a wallet may be used. -/
def setEnabled (h : Host) (wallet : Uuid) (enabled : Bool) (time : Timestamp) :
    Except WalletError Host := do
  return { h with repository := ← h.repository.setEnabled wallet enabled time }

end Host

end Keyring
