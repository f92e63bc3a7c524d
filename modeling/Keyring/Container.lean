import Keyring.Address.Encoding
import Keyring.Json.Reader
import Keyring.Json.Value
import Keyring.Signature

/-!
# Container transactions

A container carries the encoded transaction of another chain as raw bytes, the number
of its inputs, and the signatures collected so far.  Signing appends one signature over
the digest of the raw bytes for every input; the digest is the same for all of them, so
they are equal.
-/

namespace Keyring

/-- How the raw bytes of a container are digested. -/
inductive DigestAlgorithm
  | sha256
  | doubleSha256
  deriving DecidableEq, Repr

namespace DigestAlgorithm

/-- The algorithm of a name. -/
def ofName? : String → Option DigestAlgorithm
  | "sha256" => some sha256
  | "double_sha256" => some doubleSha256
  | _ => none

/-- The digest of a byte string. -/
def digest : DigestAlgorithm → Bytes → Bytes
  | sha256 => Keyring.sha256
  | doubleSha256 => Keyring.doubleSha256

end DigestAlgorithm

/-- A transaction of another chain with its signatures. -/
structure Container where
  rawData : Bytes
  inputCount : UInt32
  /-- Signatures in hexadecimal. -/
  signatures : List String
  deriving DecidableEq, Repr

namespace Container

open Json

/-- A container as a JSON value. -/
def toValue (c : Container) : Value :=
  .object
    [("raw_data", .string (Hex.encode c.rawData)), ("input_count", .ofNat c.inputCount.toNat),
     ("signatures", .array (c.signatures.map .string))]

/-- The payload of a container. -/
def encode (c : Container) : Bytes :=
  c.toValue.bytes

/-- A byte string in hexadecimal. -/
def hex? (t : Tree) : Option Bytes := do
  (Hex.decode (← t.string?)).toOption

/-- Reads a container from a document. -/
def ofTree? (t : Tree) : Option Container := do
  match ← t.record? .refused ["raw_data", "input_count", "signatures"] with
  | [rawData, inputCount, signatures] =>
    return {
      rawData := ← Tree.required? hex? rawData
      inputCount := ← Tree.required? Tree.uint32? inputCount
      signatures := ← Tree.defaulted? [] (Tree.list? Tree.string?) signatures
    }
  | _ => none

/-- Reads the payload of a container. -/
def decode (payload : Bytes) : Except WalletError Container :=
  match (Tree.ofBytes? payload).bind ofTree? with
  | some c => .ok c
  | none => .error (.serialization "payload is no container")

/-- A signer for the containers of one chain. -/
structure Signer where
  algorithm : DigestAlgorithm
  encoding : AddressEncoding
  network : Network
  /-- Containers with more inputs are refused. -/
  maxInputs : UInt32
  deriving DecidableEq, Repr

namespace Signer

/-- The limit on inputs where none is configured. -/
def defaultMaxInputs : UInt32 :=
  256

/-- The digest over which the inputs of a container are signed. -/
def digest (signer : Signer) (c : Container) : Word256 :=
  Word256.ofBytes (signer.algorithm.digest c.rawData)

/-- The address that signed a digest. -/
def recoverAddress (signer : Signer) (digest : Word256) (sig : RecoverableSignature) :
    Except WalletError String :=
  if 1 < sig.recoveryId then .error (.recovery (.badRecoveryId sig.recoveryId))
  else do
    let key ← recoverPublicKey digest sig.r sig.s (27 + sig.recoveryId.toNat)
    return key.address signer.encoding signer.network

/-- Whether a container can be signed. -/
def check (signer : Signer) (c : Container) : Except WalletError Unit :=
  if c.rawData.isEmpty then .error (.missingField "raw_data")
  else if c.inputCount = 0 then .error (.missingField "input_count")
  else if signer.maxInputs < c.inputCount then .error (.invalidRange 0 (c.inputCount - 1))
  else .ok ()

/-- Appends a signature for every input.  The signature has to recover to the address it
was made for. -/
def sign (signer : Signer) (key : Word256) (address : String) (c : Container) :
    Except WalletError Container := do
  signer.check c
  let digest := signer.digest c
  let sig ← signDigest key digest
  let recovered ← signer.recoverAddress digest sig
  if recovered = address then
    let copies := List.replicate c.inputCount.toNat (Hex.encode sig.toBytes)
    return { c with signatures := c.signatures ++ copies }
  else
    .error (.recovery (.unexpectedSigner recovered address))

/-- The address that made a signature given in hexadecimal. -/
def recoverText (signer : Signer) (digest : Word256) (text : String) :
    Except WalletError String :=
  match Hex.decode text with
  | .error fault => .error (.recovery (.hex fault))
  | .ok b => do signer.recoverAddress digest (← RecoverableSignature.ofBytes b)

/-- The addresses that made the signatures of a container, in their order. -/
def recoverSigners (signer : Signer) (c : Container) : Except WalletError (List String) :=
  c.signatures.mapM (signer.recoverText (signer.digest c))

/-- Signs the payload of a container. -/
def signPayload (signer : Signer) (key : Word256) (address : String) (payload : Bytes) :
    Except WalletError Bytes := do
  let c ← Container.decode payload
  return (← signer.sign key address c).encode

end Signer

end Container

end Keyring
