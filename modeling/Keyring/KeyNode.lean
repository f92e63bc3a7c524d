import Keyring.Digest.Hmac
import Keyring.Digest.Ripemd160
import Keyring.Encoding.Base58
import Keyring.Error
import Keyring.Network
import Keyring.Secp256k1

/-!
# Nodes of the key tree

A node of a BIP32 key tree holds a private key, its public key and a chain code, from
which its children are derived, and knows its depth, its number among its siblings and
the fingerprint of its parent.  Clearing a node forgets the key material and the
network; every operation that needs them fails from then on.

Exported keys are Base58Check texts of 78 bytes: version, depth, parent fingerprint,
child number, chain code and key.
-/

namespace Keyring

open Secp256k1

/-- The key material of a node. -/
structure KeyMaterial where
  /-- The private key as it is kept; it is read anew wherever a child is derived. -/
  secret : Word256
  publicKey : Point
  chainCode : Bytes
  deriving DecidableEq

/-- A node of the key tree. -/
structure KeyNode where
  material : Option KeyMaterial
  /-- Wider than the byte that an exported key has for it. -/
  depth : UInt16
  parentFingerprint : UInt32
  childNumber : UInt32
  network? : Option Network
  deriving DecidableEq

/-- Child numbers from here on are hardened: the child depends on the private key. -/
def hardenedOffset : UInt32 :=
  0x80000000

namespace KeyNode

/-- The number of bytes in an exported key. -/
def exportLength : Nat :=
  78

/-- The node of a private key, its public key computed. -/
def ofSecret (secret : Secret) (chainCode : Bytes) (depth : UInt16)
    (parentFingerprint childNumber : UInt32) (network : Network) : KeyNode :=
  ⟨some ⟨secret.toWord, secret.publicKey, chainCode⟩, depth, parentFingerprint, childNumber,
    some network⟩

/-- The node of a private key; its chain code must have 32 bytes. -/
def ofParts (secret : Secret) (chainCode : Bytes) (depth : UInt16)
    (parentFingerprint childNumber : UInt32) (network : Network) : Except WalletError KeyNode :=
  if chainCode.length = 32 then
    .ok (ofSecret secret chainCode depth parentFingerprint childNumber network)
  else .error (.internal "chain code must be 32 bytes")

/-- The master node of a seed of 16 to 64 bytes. -/
def ofSeed (seed : Bytes) (network : Network) : Except WalletError KeyNode :=
  if seed.length < 16 ∨ 64 < seed.length then .error (.invalidSeedLength seed.length)
  else
    let digest := hmacSha512 (Bytes.ofString "Bitcoin seed") seed
    match Secret.ofBytes? (digest.take 32) with
    | none => .error (.derivation .unusableSeed)
    | some secret => ofParts secret (digest.drop 32) 0 0 0 network

/-- The material of a node that is not cleared. -/
def liveMaterial (node : KeyNode) : Except WalletError KeyMaterial :=
  match node.material with
  | some m => .ok m
  | none => .error .keyCleared

/-- The network of a node that is not cleared. -/
def liveNetwork (node : KeyNode) : Except WalletError Network :=
  match node.network? with
  | some network => .ok network
  | none => .error .keyCleared

/-- Whether the node was cleared. -/
def isCleared (node : KeyNode) : Bool :=
  node.material.isNone

def privateKey (node : KeyNode) : Except WalletError Word256 :=
  return (← node.liveMaterial).secret

def publicKey (node : KeyNode) : Except WalletError Point :=
  return (← node.liveMaterial).publicKey

/-- The fingerprint of a public key: the first four bytes of its digest. -/
def fingerprintOf (key : Point) : UInt32 :=
  (Bytes.words32 (hash160 key.compressed)).headD 0

/-- The fingerprint of a node. -/
def fingerprint (node : KeyNode) : Except WalletError UInt32 :=
  return fingerprintOf (← node.publicKey)

/-- What the keyed hash of a parent takes in for child `index`. -/
def childData (m : KeyMaterial) (index : UInt32) : Bytes :=
  (if hardenedOffset ≤ index then 0 :: m.secret.toBytes else m.publicKey.compressed)
    ++ Bytes.ofWord32 index

/-- Derives child `index`. -/
def derive (node : KeyNode) (index : UInt32) : Except WalletError KeyNode := do
  let m ← node.liveMaterial
  let network ← node.liveNetwork
  if 255 ≤ node.depth then .error (.derivation .depthExhausted)
  else
    let digest := hmacSha512 m.chainCode (childData m index)
    let tweak := Bytes.toNat (digest.take 32)
    if order ≤ tweak then .error (.invalidChildKey index)
    else
      match Secret.ofWord? m.secret with
      | none => .error .keyCleared
      | some parent =>
        match Secret.ofNat? ((parent.val + tweak) % order) with
        | none => .error (.invalidChildKey index)
        | some secret => do
          ofParts secret (digest.drop 32) (node.depth + 1) (← node.fingerprint) index network

/-- Derives the given children one below the other; there has to be at least one. -/
def deriveIndices (node : KeyNode) : List UInt32 → Except WalletError KeyNode
  | [] => .error (.derivation .emptyPath)
  | index :: rest => do rest.foldlM derive (← node.derive index)

/-- Forgets the key material and the network. -/
def clear (node : KeyNode) : KeyNode :=
  { node with material := none, network? := none }

/-- An exported key with a version and 33 bytes of key data. -/
def exported (node : KeyNode) (version : UInt32) (keyData : Bytes) :
    Except WalletError String := do
  let m ← node.liveMaterial
  if 255 < node.depth then .error (.derivation .depthTooLarge)
  else
    return Base58.encodeCheck
      (Bytes.ofWord32 version ++ node.depth.toUInt8 :: (Bytes.ofWord32 node.parentFingerprint
        ++ Bytes.ofWord32 node.childNumber ++ m.chainCode ++ keyData))

/-- The extended private key of a node. -/
def extendedPrivate (node : KeyNode) : Except WalletError String := do
  let m ← node.liveMaterial
  let network ← node.liveNetwork
  node.exported network.privateVersion (0 :: m.secret.toBytes)

/-- The extended public key of a node. -/
def extendedPublic (node : KeyNode) : Except WalletError String := do
  let m ← node.liveMaterial
  let network ← node.liveNetwork
  node.exported network.publicVersion m.publicKey.compressed

/-- The big-endian 32-bit word at a position of a byte string. -/
def wordAt (raw : Bytes) (position : Nat) : UInt32 :=
  (Bytes.words32 (raw.drop position)).headD 0

/-- Reads an extended private key of the given network. -/
def ofExtendedPrivate (text : String) (network : Network) : Except WalletError KeyNode :=
  match Base58.decodeCheck? text with
  | none => .error (.derivation .badChecksum)
  | some raw =>
    if raw.length ≠ exportLength then .error (.derivation (.wrongLength raw.length))
    else if wordAt raw 0 ≠ network.privateVersion then .error (.derivation .wrongVersion)
    else if raw.getD 45 0 ≠ 0 then .error (.derivation .notPrivate)
    else
      match Secret.ofBytes? (raw.drop 46) with
      | none => .error (.derivation .badSecret)
      | some secret =>
        ofParts secret ((raw.drop 13).take 32) (raw.getD 4 0).toUInt16 (wordAt raw 5)
          (wordAt raw 9) network

/-- A diagnostic text that shows no key material. -/
def describe (node : KeyNode) : String :=
  "KeyBundle \x7b depth: " ++ toString node.depth ++ ", parent_fingerprint: "
    ++ Text.quote (Hex.encode (Bytes.ofWord32 node.parentFingerprint)) ++ ", child_number: "
    ++ toString node.childNumber ++ ", cleared: " ++ toString node.isCleared ++ " \x7d"

end KeyNode

end Keyring
