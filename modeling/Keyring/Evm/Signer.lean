import Keyring.Evm.Transaction
import Keyring.Signature

/-!
# Signing transactions of account chains

The `v` of a signature says which of two public keys signed.  A legacy transaction also
binds it to the chain: it is `35 + 2 * chain` plus the recovery id.  Every signature is
checked before it is handed out: it has to recover to the sender it was made for.
-/

namespace Keyring.Evm

/-- The `v` of the legacy signature with recovery id zero on a chain, if it fits 64 bits. -/
def legacyBase? (chainId : UInt64) : Option Nat :=
  let base := 2 * chainId.toNat + 35
  if base < UInt64.size then some base else none

/-- The `v` of a signature on a chain. -/
def signatureV (kind : Kind) (chainId : UInt64) (recoveryId : UInt8) :
    Except WalletError UInt64 :=
  match kind with
  | .legacy =>
    let v := 2 * chainId.toNat + 35 + recoveryId.toNat
    if v < UInt64.size then .ok (UInt64.ofNat v) else .error (.signing (.chainIdOverflow chainId))
  | .accessList | .dynamicFee => .ok recoveryId.toUInt64

/-- The `v` that recovery of a public key expects, 27 or 28.  Legacy signatures that are
bound to no chain have that form already. -/
def recoveryV (kind : Kind) (chainId v : UInt64) : Except WalletError Nat :=
  let n := v.toNat
  let invalid : Except WalletError Nat := .error (.recovery (.wrongV v kind.title))
  match kind with
  | .legacy =>
    if n = 27 ∨ n = 28 then .ok n
    else
      match legacyBase? chainId with
      | none => invalid
      | some base => if n = base ∨ n = base + 1 then .ok (27 + (n - base)) else invalid
  | .accessList | .dynamicFee => if n = 0 ∨ n = 1 then .ok (27 + n) else invalid

/-- The address that signed a digest. -/
def recoverSigner (kind : Kind) (chainId : UInt64) (digest : Word256) (sig : Signature) :
    Except WalletError EvmAddress := do
  let v ← recoveryV kind chainId sig.v
  return EvmAddress.ofPublicKey (← recoverPublicKey digest sig.r sig.s v)

/-- A signed transaction. -/
structure SignedTransaction where
  transaction : Transaction
  chainId : UInt64
  digest : Word256
  signature : Signature
  deriving DecidableEq, Repr

/-- The bytes to be sent. -/
def SignedTransaction.bytes (t : SignedTransaction) : Bytes :=
  t.transaction.signedBytes t.chainId t.signature

/-- A signer for the transactions of one chain. -/
structure Signer where
  chainId : UInt64
  deriving DecidableEq, Repr

namespace Signer

/-- Signs the transaction that a request asks for and checks that the signature recovers
to the sender. -/
def signRequest (signer : Signer) (key : Word256) (sender : EvmAddress) (request : Request) :
    Except WalletError SignedTransaction := do
  let tx ← request.transaction
  let digest := tx.signingDigest signer.chainId
  let raw ← signDigest key digest
  let v ← signatureV request.kind signer.chainId raw.recoveryId
  let sig : Signature := ⟨raw.r, raw.s, v⟩
  let recovered ← recoverSigner request.kind signer.chainId digest sig
  if recovered = sender then
    return ⟨tx, signer.chainId, digest, sig⟩
  else
    .error (.recovery (.unexpectedSigner recovered.lowerText sender.lowerText))

/-- Signs the payload of a request for the sender whose address is given as text. -/
def signPayload (signer : Signer) (key : Word256) (sender : String) (payload : Bytes) :
    Except WalletError Bytes := do
  let request ← Request.decode payload
  let sender ← EvmAddress.ofText sender
  return (← signer.signRequest key sender request).bytes

end Signer

end Keyring.Evm
