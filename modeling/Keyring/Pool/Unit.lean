import Keyring.Chain.Plugin
import Keyring.Wallet.Record

/-!
# Pool units

A pool unit stands for one wallet and one of its mnemonics.  It loads the keychain of
the wallet when an operation needs it, unloads it when no operation has succeeded for
some time, and can be shut down for good.

Loading goes through a gate: the record has to exist, to be enabled and to carry the
mnemonic of the unit, its blob has to open, and the phrase has to have the stored
fingerprint.  The first of these that fails is reported.  What is handed to the decryptor on the
way is answered beside the keychain and kept by the unit.
-/

namespace Keyring

/-- What all units of a host share. -/
structure PoolContext where
  plugin : Plugin
  /-- Opens the blob of a record. -/
  decrypt : Bytes → Except WalletError Bytes
  /-- How long a keychain stays loaded without a successful operation. -/
  interval : Nat

/-- Hands a blob to the decryptor; answers also what was handed over. -/
def PoolContext.handOver (ctx : PoolContext) (blob : Bytes) :
    Except WalletError Bytes × List Bytes :=
  (ctx.decrypt blob, [blob])

/-- Finds the record of a wallet. -/
abbrev RecordSource :=
  Uuid → Except WalletError WalletRecord

/-- A wallet's keychain, loaded when it is needed. -/
structure PoolUnit where
  wallet : Uuid
  mnemonic : Uuid
  keychain : Option Keychain := none
  isClosed : Bool := false
  /-- The time from which on the unit is idle. -/
  deadline : Option Nat := none
  /-- The blobs that were handed to the decryptor, the first one first. -/
  decrypted : List Bytes := []
  deriving DecidableEq

namespace PoolUnit

/-- The error for a wallet that does not carry the expected mnemonic. -/
def foreignMnemonic (wallet mnemonic : Uuid) : WalletError :=
  .walletNotFound ("wallet " ++ wallet.text ++ " has no mnemonic " ++ mnemonic.text)

def isLoaded (u : PoolUnit) : Bool :=
  u.keychain.isSome

/-- The number of addresses that the unit keeps. -/
def cachedAddresses (u : PoolUnit) : Nat :=
  match u.keychain with
  | some k => k.cache.size
  | none => 0

/-! ## Loading -/

/-- The record of the unit's wallet, if the unit may use it. -/
def findRecord (u : PoolUnit) (source : RecordSource) : Except WalletError WalletRecord := do
  let record ← source u.wallet
  if !record.isEnabled then .error (.walletDisabled u.wallet.text)
  else if record.mnemonic ≠ u.mnemonic then .error (foreignMnemonic u.wallet u.mnemonic)
  else return record

/-- Any failure to open a blob is a failure to decrypt. -/
def asDecryption : WalletError → WalletError
  | .decryption fault => .decryption fault
  | e => .decryption (.other e.message)

/-- Checks the fingerprint of what the decryptor made of the blob of a record. -/
def checkOpened (u : PoolUnit) (record : WalletRecord) :
    Except WalletError Bytes → Except WalletError Bytes
  | .error e => .error (asDecryption e)
  | .ok phrase =>
    if Mnemonic.hasFingerprint phrase record.fingerprint then .ok phrase
    else .error (.integrityMismatch u.wallet.text)

/-- Opens the blob of a record; answers also what was handed to the decryptor. -/
def openRecord (u : PoolUnit) (ctx : PoolContext) (record : WalletRecord) :
    Except WalletError Bytes × List Bytes :=
  let (opened, handed) := ctx.handOver record.encryptedMnemonic
  (u.checkOpened record opened, handed)

/-- The keychain of a decrypted phrase. -/
def openPhrase (ctx : PoolContext) (phrase : Bytes) : Except WalletError Keychain :=
  match phrase.toString? with
  | some text => ctx.plugin.keychain text
  | none => .error (.mnemonic .notUtf8)

/-- The keychain of the unit's wallet; answers also what was handed to the decryptor. -/
def fetch (u : PoolUnit) (ctx : PoolContext) (source : RecordSource) :
    Except WalletError Keychain × List Bytes :=
  match u.findRecord source with
  | .error e => (.error e, [])
  | .ok record =>
    let (opened, handed) := u.openRecord ctx record
    (opened.bind (openPhrase ctx), handed)

/-- Keeps what was handed to the decryptor. -/
def note (u : PoolUnit) (handed : List Bytes) : PoolUnit :=
  { u with decrypted := u.decrypted ++ handed }

/-! ## Operations -/

/-- Starts the idle time anew. -/
def rearm (u : PoolUnit) (ctx : PoolContext) (now : Nat) : PoolUnit :=
  { u with deadline := some (now + ctx.interval) }

/-- Lets a loaded keychain do its work; success starts the idle time anew. -/
def run (u : PoolUnit) (ctx : PoolContext) (now : Nat) (k : Keychain)
    (op : Keychain.Operation) : Except WalletError Keychain.Answer × PoolUnit :=
  let (answer, k) := k.perform op
  let u := { u with keychain := some k }
  match answer with
  | .ok a => (.ok a, u.rearm ctx now)
  | .error e => (.error e, u)

/-- Does what the unit is asked to do and loads its keychain first if it has to. -/
def operate (u : PoolUnit) (ctx : PoolContext) (source : RecordSource) (now : Nat)
    (op : Keychain.Operation) : Except WalletError Keychain.Answer × PoolUnit :=
  if u.isClosed then (.error (.unitClosed u.wallet.text), u)
  else
    match u.keychain with
    | some k => u.run ctx now k op
    | none =>
      let (fetched, handed) := u.fetch ctx source
      let u := u.note handed
      match fetched with
      | .error e => (.error e, u)
      | .ok k => (u.rearm ctx now).run ctx now k op

/-- Unloads the keychain; answers whether there was one. -/
def unload (u : PoolUnit) : Bool × PoolUnit :=
  (u.isLoaded, { u with keychain := none, deadline := none })

/-- Unloads the keychain for good. -/
def shutdown (u : PoolUnit) : PoolUnit :=
  { u.unload.2 with isClosed := true }

/-- Unloads the keychain if the unit is idle. -/
def unloadIfIdle (u : PoolUnit) (now : Nat) : Bool × PoolUnit :=
  match u.deadline with
  | some deadline => if deadline ≤ now then u.unload else (false, u)
  | none => (false, u)

end PoolUnit

end Keyring
