import Keyring.Bytes

/-!
# SHA-512

The hash function of FIPS 180-4 on byte strings, with blocks of 128 bytes and a state
of eight 64-bit words.
-/

namespace Keyring

namespace Sha512

/-- The working state: eight 64-bit words. -/
structure State where
  a : UInt64
  b : UInt64
  c : UInt64
  d : UInt64
  e : UInt64
  f : UInt64
  g : UInt64
  h : UInt64

/-- The state before the first block. -/
def State.initial : State :=
  ⟨0x6a09e667f3bcc908, 0xbb67ae8584caa73b, 0x3c6ef372fe94f82b, 0xa54ff53a5f1d36f1,
   0x510e527fade682d1, 0x9b05688c2b3e6c1f, 0x1f83d9abfb41bd6b, 0x5be0cd19137e2179⟩

/-- The 80 round constants. -/
def roundConstants : List UInt64 :=
  [0x428a2f98d728ae22, 0x7137449123ef65cd, 0xb5c0fbcfec4d3b2f, 0xe9b5dba58189dbbc,
   0x3956c25bf348b538, 0x59f111f1b605d019, 0x923f82a4af194f9b, 0xab1c5ed5da6d8118,
   0xd807aa98a3030242, 0x12835b0145706fbe, 0x243185be4ee4b28c, 0x550c7dc3d5ffb4e2,
   0x72be5d74f27b896f, 0x80deb1fe3b1696b1, 0x9bdc06a725c71235, 0xc19bf174cf692694,
   0xe49b69c19ef14ad2, 0xefbe4786384f25e3, 0x0fc19dc68b8cd5b5, 0x240ca1cc77ac9c65,
   0x2de92c6f592b0275, 0x4a7484aa6ea6e483, 0x5cb0a9dcbd41fbd4, 0x76f988da831153b5,
   0x983e5152ee66dfab, 0xa831c66d2db43210, 0xb00327c898fb213f, 0xbf597fc7beef0ee4,
   0xc6e00bf33da88fc2, 0xd5a79147930aa725, 0x06ca6351e003826f, 0x142929670a0e6e70,
   0x27b70a8546d22ffc, 0x2e1b21385c26c926, 0x4d2c6dfc5ac42aed, 0x53380d139d95b3df,
   0x650a73548baf63de, 0x766a0abb3c77b2a8, 0x81c2c92e47edaee6, 0x92722c851482353b,
   0xa2bfe8a14cf10364, 0xa81a664bbc423001, 0xc24b8b70d0f89791, 0xc76c51a30654be30,
   0xd192e819d6ef5218, 0xd69906245565a910, 0xf40e35855771202a, 0x106aa07032bbd1b8,
   0x19a4c116b8d2d0c8, 0x1e376c085141ab53, 0x2748774cdf8eeb99, 0x34b0bcb5e19b48a8,
   0x391c0cb3c5c95a63, 0x4ed8aa4ae3418acb, 0x5b9cca4f7763e373, 0x682e6ff3d6b2b8a3,
   0x748f82ee5defb2fc, 0x78a5636f43172f60, 0x84c87814a1f0ab72, 0x8cc702081a6439ec,
   0x90befffa23631e28, 0xa4506cebde82bde9, 0xbef9a3f7b2c67915, 0xc67178f2e372532b,
   0xca273eceea26619c, 0xd186b8c721c0c207, 0xeada7dd6cde0eb1e, 0xf57d4f7fee6ed178,
   0x06f067aa72176fba, 0x0a637dc5a2c898a6, 0x113f9804bef90dae, 0x1b710b35131c471b,
   0x28db77f523047d84, 0x32caab7b40c72493, 0x3c9ebe0a15c9bebc, 0x431d67c49c100d4c,
   0x4cc5d4becb3e42b6, 0x597f299cfc657e2a, 0x5fcb6fab3ad6faec, 0x6c44198c4a475817]

/-- Rotation to the right by `k` places, `0 < k < 64`. -/
def rotr (x k : UInt64) : UInt64 :=
  (x >>> k) ||| (x <<< (64 - k))

/-- The 64-bit words of a byte string, most significant byte first. -/
def words : Bytes → List UInt64
  | a :: b :: c :: d :: e :: f :: g :: h :: rest =>
    (((Bytes.word32 a b c d).toUInt64 <<< 32) ||| (Bytes.word32 e f g h).toUInt64) :: words rest
  | _ => []

/-- One more word of the message schedule from the words so far, latest first. -/
def nextWord (w : List UInt64) : UInt64 :=
  let x := w.getD 1 0
  let y := w.getD 14 0
  let s1 := rotr x 19 ^^^ rotr x 61 ^^^ (x >>> 6)
  let s0 := rotr y 1 ^^^ rotr y 8 ^^^ (y >>> 7)
  s1 + w.getD 6 0 + s0 + w.getD 15 0

/-- Extends a schedule, latest word first, by `n` words. -/
def extend : Nat → List UInt64 → List UInt64
  | 0, w => w
  | n + 1, w => extend n (nextWord w :: w)

/-- One round with its constant `k` and schedule word `w`. -/
def State.round (s : State) (k w : UInt64) : State :=
  let t1 := s.h + (rotr s.e 14 ^^^ rotr s.e 18 ^^^ rotr s.e 41)
    + ((s.e &&& s.f) ^^^ (~~~s.e &&& s.g)) + k + w
  let t2 := (rotr s.a 28 ^^^ rotr s.a 34 ^^^ rotr s.a 39)
    + ((s.a &&& s.b) ^^^ (s.a &&& s.c) ^^^ (s.b &&& s.c))
  ⟨t1 + t2, s.a, s.b, s.c, s.d + t1, s.e, s.f, s.g⟩

/-- All rounds, one for each constant and word. -/
def State.rounds (s : State) : List UInt64 → List UInt64 → State
  | k :: ks, w :: ws => (s.round k w).rounds ks ws
  | _, _ => s

/-- Mixes one block of 128 bytes into the state. -/
def State.compress (s : State) (block : Bytes) : State :=
  let t := s.rounds roundConstants (extend 64 (words block).reverse).reverse
  ⟨s.a + t.a, s.b + t.b, s.c + t.c, s.d + t.d, s.e + t.e, s.f + t.f, s.g + t.g, s.h + t.h⟩

/-- Mixes `n` blocks into the state. -/
def State.absorb (s : State) : Nat → Bytes → State
  | 0, _ => s
  | n + 1, m => (s.compress (m.take 128)).absorb n (m.drop 128)

/-- The bytes of the state. -/
def State.toBytes (s : State) : Bytes :=
  Bytes.ofWord64 s.a ++ Bytes.ofWord64 s.b ++ Bytes.ofWord64 s.c ++ Bytes.ofWord64 s.d
    ++ Bytes.ofWord64 s.e ++ Bytes.ofWord64 s.f ++ Bytes.ofWord64 s.g ++ Bytes.ofWord64 s.h

/-- A message followed by a one bit, zeros and its length in bits, in whole blocks. -/
def pad (m : Bytes) : Bytes :=
  m ++ 0x80 :: (List.replicate ((239 - m.length % 128) % 128) 0 ++ Bytes.ofNat 16 (8 * m.length))

end Sha512

/-- The SHA-512 digest of a message, 64 bytes. -/
def sha512 (m : Bytes) : Bytes :=
  let padded := Sha512.pad m
  (Sha512.State.initial.absorb (padded.length / 128) padded).toBytes

theorem length_sha512 (m : Bytes) : (sha512 m).length = 64 := rfl

end Keyring
