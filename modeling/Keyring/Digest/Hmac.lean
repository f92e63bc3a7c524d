import Keyring.Digest.Sha256
import Keyring.Digest.Sha512

/-!
# Keyed hashing and key stretching

HMAC over a hash function, and the key stretching of PBKDF2 with HMAC-SHA-512 that
turns a phrase into a seed.
-/

namespace Keyring

/-- HMAC with the hash function `hash`, whose blocks have `block` bytes. -/
def hmac (hash : Bytes → Bytes) (block : Nat) (key : Bytes) : Bytes → Bytes :=
  let short := if key.length > block then hash key else key
  let padded := short ++ List.replicate (block - short.length) 0
  let inner := padded.map (· ^^^ 0x36)
  let outer := padded.map (· ^^^ 0x5c)
  fun message => hash (outer ++ hash (inner ++ message))

/-- HMAC-SHA-256. -/
def hmacSha256 (key : Bytes) : Bytes → Bytes :=
  hmac sha256 64 key

/-- HMAC-SHA-512. -/
def hmacSha512 (key : Bytes) : Bytes → Bytes :=
  hmac sha512 128 key

theorem length_hmacSha512 (key message : Bytes) : (hmacSha512 key message).length = 64 := rfl

namespace Pbkdf2

/-- Feeds `u` through the keyed hash `n` more times and collects the exclusive or of
all results in `sum`. -/
def stretch (prf : Bytes → Bytes) : (n : Nat) → (u sum : Bytes) → Bytes
  | 0, _, sum => sum
  | n + 1, u, sum =>
    let v := prf u
    stretch prf n v (Bytes.xor sum v)

end Pbkdf2

/-- The first 64 bytes of PBKDF2 with HMAC-SHA-512. -/
def pbkdf2Sha512 (password salt : Bytes) (iterations : Nat) : Bytes :=
  let prf := hmacSha512 password
  let first := prf (salt ++ [0, 0, 0, 1])
  Pbkdf2.stretch prf (iterations - 1) first first

end Keyring
