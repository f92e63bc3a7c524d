import Keyring.Digest.Hmac
import Keyring.Error
import Keyring.Secp256k1

/-!
# Recoverable signatures

ECDSA over secp256k1 with deterministic nonces (RFC 6979 with HMAC-SHA-256, the digest
reduced modulo the group order) and the lower of the two possible `s`.  The recovery
id says which point the nonce gave, so the public key can be recovered from a digest
and a signature.
-/

namespace Keyring

open Secp256k1

/-- A signature with the id that selects its public key. -/
structure RecoverableSignature where
  r : Word256
  s : Word256
  recoveryId : UInt8
  deriving DecidableEq, Repr

namespace RecoverableSignature

/-- The 65 bytes of a signature: `r`, `s` and the recovery id. -/
def toBytes (sig : RecoverableSignature) : Bytes :=
  sig.r.toBytes ++ sig.s.toBytes ++ [sig.recoveryId]

/-- Reads a signature of 65 bytes. -/
def ofBytes (b : Bytes) : Except WalletError RecoverableSignature :=
  if b.length = 65 then
    .ok ⟨Word256.ofBytes (b.take 32), Word256.ofBytes ((b.drop 32).take 32), b.getD 64 0⟩
  else
    .error (.recovery (.wrongLength b.length))

end RecoverableSignature

namespace Nonce

/-- The state of the nonce generator. -/
structure Generator where
  key : Bytes
  value : Bytes

/-- Mixes `tag` and `seed` into the state. -/
def Generator.update (g : Generator) (tag : UInt8) (seed : Bytes) : Generator :=
  let key := hmacSha256 g.key (g.value ++ tag :: seed)
  ⟨key, hmacSha256 key g.value⟩

/-- The state for a private key and a digest. -/
def Generator.start (secret : Secret) (digest : Word256) : Generator :=
  let seed := secret.toBytes ++ Bytes.ofNat 32 (digest.toNat % order)
  let g : Generator := ⟨List.replicate 32 0, List.replicate 32 1⟩
  (g.update 0 seed).update 1 seed

end Nonce

/-- The signature that the nonce `k` gives, unless one of its halves is zero. -/
def signWithNonce? (secret : Secret) (digest : Word256) (k : Secret) :
    Option RecoverableSignature :=
  match k.publicKey with
  | .infinity => none
  | .affine x y =>
    let r := x % order
    let s := invMod order k.val * (digest.toNat + r * secret.val) % order
    if r = 0 ∨ s = 0 then none
    else
      let id := (if order ≤ x then 2 else 0) + y % 2
      if s ≤ order / 2 then
        some ⟨BitVec.ofNat 256 r, BitVec.ofNat 256 s, UInt8.ofNat id⟩
      else
        some ⟨BitVec.ofNat 256 r, BitVec.ofNat 256 (order - s), UInt8.ofNat (id ^^^ 1)⟩

/-- Tries up to `tries` nonces one after another. -/
def signFrom (secret : Secret) (digest : Word256) :
    (tries : Nat) → Nonce.Generator → Option RecoverableSignature
  | 0, _ => none
  | tries + 1, g =>
    let value := hmacSha256 g.key g.value
    let g : Nonce.Generator := ⟨g.key, value⟩
    match (Secret.ofBytes? value).bind (signWithNonce? secret digest) with
    | some sig => some sig
    | none => signFrom secret digest tries (g.update 0 [])

/-- Signs a digest with a private key.  All but a negligible share of digests succeed
with the first nonce; more than 128 are never tried. -/
def signSecret (secret : Secret) (digest : Word256) : Except WalletError RecoverableSignature :=
  match signFrom secret digest 128 (.start secret digest) with
  | some sig => .ok sig
  | none => .error (.signing .nonceExhausted)

/-- Signs a digest with the private key a word spells. -/
def signDigest (key digest : Word256) : Except WalletError RecoverableSignature :=
  match Secret.ofWord? key with
  | some secret => signSecret secret digest
  | none => .error (.signing .badSecret)

/-- The two halves of a signature with the lower of the two equivalent values for `s`.
Halves that are no scalars are left alone. -/
def ensureLowS (r s : Word256) : Word256 × Word256 :=
  if r.toNat < order ∧ s.toNat < order ∧ order / 2 < s.toNat then
    (r, BitVec.ofNat 256 (order - s.toNat))
  else (r, s)

/-- The public key for which `(r, s)` signs the digest with the nonce point whose first
coordinate is `r` and whose second is odd or even. -/
def recoverPoint? (digest r s : Nat) (odd : Bool) : Option Point := do
  if r = 0 ∨ s = 0 then none
  let nonce ← Point.lift? r odd
  let inverse := invMod order r
  let a := (order - digest % order) * inverse % order
  let b := s * inverse % order
  match Point.combine a .generator b nonce with
  | .infinity => none
  | point => some point

/-- Recovers the signer's public key.  `v` must be 27 or 28, `s` the lower of the two
possible values. -/
def recoverPublicKey (digest r s : Word256) (v : Nat) : Except WalletError Point :=
  if v ≠ 27 ∧ v ≠ 28 then .error (.recovery (.invalidV v))
  else if ensureLowS r s ≠ (r, s) then .error (.recovery .highS)
  else if order ≤ r.toNat ∨ order ≤ s.toNat then .error (.recovery .malformed)
  else
    match recoverPoint? digest.toNat r.toNat s.toNat (v == 28) with
    | some point => .ok point
    | none => .error (.recovery .malformed)

end Keyring
