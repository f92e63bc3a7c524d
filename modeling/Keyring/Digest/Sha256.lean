import Keyring.Bytes

/-!
# SHA-256

The hash function of FIPS 180-4 on byte strings.  A message is padded to whole
blocks of 64 bytes; each block is expanded to 64 words and mixed into an eight-word
state.
-/

namespace Keyring

namespace Sha256

/-- The working state: eight 32-bit words. -/
structure State where
  a : UInt32
  b : UInt32
  c : UInt32
  d : UInt32
  e : UInt32
  f : UInt32
  g : UInt32
  h : UInt32

/-- The state before the first block. -/
def State.initial : State :=
  ⟨0x6a09e667, 0xbb67ae85, 0x3c6ef372, 0xa54ff53a, 0x510e527f, 0x9b05688c, 0x1f83d9ab, 0x5be0cd19⟩

/-- The 64 round constants. -/
def roundConstants : List UInt32 :=
  [0x428a2f98, 0x71374491, 0xb5c0fbcf, 0xe9b5dba5, 0x3956c25b, 0x59f111f1, 0x923f82a4, 0xab1c5ed5,
   0xd807aa98, 0x12835b01, 0x243185be, 0x550c7dc3, 0x72be5d74, 0x80deb1fe, 0x9bdc06a7, 0xc19bf174,
   0xe49b69c1, 0xefbe4786, 0x0fc19dc6, 0x240ca1cc, 0x2de92c6f, 0x4a7484aa, 0x5cb0a9dc, 0x76f988da,
   0x983e5152, 0xa831c66d, 0xb00327c8, 0xbf597fc7, 0xc6e00bf3, 0xd5a79147, 0x06ca6351, 0x14292967,
   0x27b70a85, 0x2e1b2138, 0x4d2c6dfc, 0x53380d13, 0x650a7354, 0x766a0abb, 0x81c2c92e, 0x92722c85,
   0xa2bfe8a1, 0xa81a664b, 0xc24b8b70, 0xc76c51a3, 0xd192e819, 0xd6990624, 0xf40e3585, 0x106aa070,
   0x19a4c116, 0x1e376c08, 0x2748774c, 0x34b0bcb5, 0x391c0cb3, 0x4ed8aa4a, 0x5b9cca4f, 0x682e6ff3,
   0x748f82ee, 0x78a5636f, 0x84c87814, 0x8cc70208, 0x90befffa, 0xa4506ceb, 0xbef9a3f7, 0xc67178f2]

/-- Rotation to the right by `k` places, `0 < k < 32`. -/
def rotr (x k : UInt32) : UInt32 :=
  (x >>> k) ||| (x <<< (32 - k))

/-- One more word of the message schedule from the words so far, latest first. -/
def nextWord (w : List UInt32) : UInt32 :=
  let x := w.getD 1 0
  let y := w.getD 14 0
  let s1 := rotr x 17 ^^^ rotr x 19 ^^^ (x >>> 10)
  let s0 := rotr y 7 ^^^ rotr y 18 ^^^ (y >>> 3)
  s1 + w.getD 6 0 + s0 + w.getD 15 0

/-- Extends a schedule, latest word first, by `n` words. -/
def extend : Nat → List UInt32 → List UInt32
  | 0, w => w
  | n + 1, w => extend n (nextWord w :: w)

/-- One round with its constant `k` and schedule word `w`. -/
def State.round (s : State) (k w : UInt32) : State :=
  let t1 := s.h + (rotr s.e 6 ^^^ rotr s.e 11 ^^^ rotr s.e 25)
    + ((s.e &&& s.f) ^^^ (~~~s.e &&& s.g)) + k + w
  let t2 := (rotr s.a 2 ^^^ rotr s.a 13 ^^^ rotr s.a 22)
    + ((s.a &&& s.b) ^^^ (s.a &&& s.c) ^^^ (s.b &&& s.c))
  ⟨t1 + t2, s.a, s.b, s.c, s.d + t1, s.e, s.f, s.g⟩

/-- All rounds, one for each constant and word. -/
def State.rounds (s : State) : List UInt32 → List UInt32 → State
  | k :: ks, w :: ws => (s.round k w).rounds ks ws
  | _, _ => s

/-- Mixes one block of 64 bytes into the state. -/
def State.compress (s : State) (block : Bytes) : State :=
  let t := s.rounds roundConstants (extend 48 (Bytes.words32 block).reverse).reverse
  ⟨s.a + t.a, s.b + t.b, s.c + t.c, s.d + t.d, s.e + t.e, s.f + t.f, s.g + t.g, s.h + t.h⟩

/-- Mixes `n` blocks into the state. -/
def State.absorb (s : State) : Nat → Bytes → State
  | 0, _ => s
  | n + 1, m => (s.compress (m.take 64)).absorb n (m.drop 64)

/-- The bytes of the state. -/
def State.toBytes (s : State) : Bytes :=
  Bytes.ofWord32 s.a ++ Bytes.ofWord32 s.b ++ Bytes.ofWord32 s.c ++ Bytes.ofWord32 s.d
    ++ Bytes.ofWord32 s.e ++ Bytes.ofWord32 s.f ++ Bytes.ofWord32 s.g ++ Bytes.ofWord32 s.h

/-- A message followed by a one bit, zeros and its length in bits, in whole blocks. -/
def pad (m : Bytes) : Bytes :=
  m ++ 0x80 :: (List.replicate ((119 - m.length % 64) % 64) 0 ++ Bytes.ofNat 8 (8 * m.length))

end Sha256

/-- The SHA-256 digest of a message, 32 bytes. -/
def sha256 (m : Bytes) : Bytes :=
  let padded := Sha256.pad m
  (Sha256.State.initial.absorb (padded.length / 64) padded).toBytes

theorem length_sha256 (m : Bytes) : (sha256 m).length = 32 := rfl

/-- SHA-256 applied twice. -/
def doubleSha256 (m : Bytes) : Bytes :=
  sha256 (sha256 m)

theorem length_doubleSha256 (m : Bytes) : (doubleSha256 m).length = 32 := rfl

end Keyring
