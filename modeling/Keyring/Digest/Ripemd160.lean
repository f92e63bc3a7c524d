import Keyring.Digest.Sha256

/-!
# RIPEMD-160

A block of 64 bytes is mixed into a five-word state along two independent lines of
80 steps, whose results are added crosswise.  `hash160`, the digest behind key
fingerprints and script hashes, is RIPEMD-160 of SHA-256.
-/

namespace Keyring

namespace Ripemd160

/-- The working state: five 32-bit words. -/
structure State where
  a : UInt32
  b : UInt32
  c : UInt32
  d : UInt32
  e : UInt32

/-- The state before the first block. -/
def State.initial : State :=
  ⟨0x67452301, 0xefcdab89, 0x98badcfe, 0x10325476, 0xc3d2e1f0⟩

/-- The steps of the left line: which word is added, and how far is rotated. -/
def leftSteps : List (Nat × UInt32) :=
  [(0, 11), (1, 14), (2, 15), (3, 12), (4, 5), (5, 8), (6, 7), (7, 9),
   (8, 11), (9, 13), (10, 14), (11, 15), (12, 6), (13, 7), (14, 9), (15, 8),
   (7, 7), (4, 6), (13, 8), (1, 13), (10, 11), (6, 9), (15, 7), (3, 15),
   (12, 7), (0, 12), (9, 15), (5, 9), (2, 11), (14, 7), (11, 13), (8, 12),
   (3, 11), (10, 13), (14, 6), (4, 7), (9, 14), (15, 9), (8, 13), (1, 15),
   (2, 14), (7, 8), (0, 13), (6, 6), (13, 5), (11, 12), (5, 7), (12, 5),
   (1, 11), (9, 12), (11, 14), (10, 15), (0, 14), (8, 15), (12, 9), (4, 8),
   (13, 9), (3, 14), (7, 5), (15, 6), (14, 8), (5, 6), (6, 5), (2, 12),
   (4, 9), (0, 15), (5, 5), (9, 11), (7, 6), (12, 8), (2, 13), (10, 12),
   (14, 5), (1, 12), (3, 13), (8, 14), (11, 11), (6, 8), (15, 5), (13, 6)]

/-- The steps of the right line. -/
def rightSteps : List (Nat × UInt32) :=
  [(5, 8), (14, 9), (7, 9), (0, 11), (9, 13), (2, 15), (11, 15), (4, 5),
   (13, 7), (6, 7), (15, 8), (8, 11), (1, 14), (10, 14), (3, 12), (12, 6),
   (6, 9), (11, 13), (3, 15), (7, 7), (0, 12), (13, 8), (5, 9), (10, 11),
   (14, 7), (15, 7), (8, 12), (12, 7), (4, 6), (9, 15), (1, 13), (2, 11),
   (15, 9), (5, 7), (1, 15), (3, 11), (7, 8), (14, 6), (6, 6), (9, 14),
   (11, 12), (8, 13), (12, 5), (2, 14), (10, 13), (0, 13), (4, 7), (13, 5),
   (8, 15), (6, 5), (4, 8), (1, 11), (3, 14), (11, 14), (15, 6), (0, 14),
   (5, 6), (12, 9), (2, 12), (13, 9), (9, 12), (7, 5), (10, 15), (14, 8),
   (12, 8), (15, 5), (10, 12), (4, 9), (1, 12), (5, 5), (8, 14), (7, 6),
   (6, 8), (2, 13), (13, 6), (14, 5), (0, 15), (3, 13), (9, 11), (11, 11)]

/-- The constants of the five rounds of the left line. -/
def leftConstants : List UInt32 :=
  [0, 0x5a827999, 0x6ed9eba1, 0x8f1bbcdc, 0xa953fd4e]

/-- The constants of the five rounds of the right line. -/
def rightConstants : List UInt32 :=
  [0x50a28be6, 0x5c4dd124, 0x6d703ef3, 0x7a6d76e9, 0]

/-- The Boolean function of round `j`. -/
def mix (j : Nat) (x y z : UInt32) : UInt32 :=
  match j with
  | 0 => x ^^^ y ^^^ z
  | 1 => (x &&& y) ||| (~~~x &&& z)
  | 2 => (x ||| ~~~y) ^^^ z
  | 3 => (x &&& z) ||| (y &&& ~~~z)
  | _ => x ^^^ (y ||| ~~~z)

/-- Rotation to the left by `k` places, `0 < k < 32`. -/
def rotl (x k : UInt32) : UInt32 :=
  (x <<< k) ||| (x >>> (32 - k))

/-- The 32-bit words of a byte string, least significant byte first. -/
def words : Bytes → List UInt32
  | a :: b :: c :: d :: rest => Bytes.word32 d c b a :: words rest
  | _ => []

/-- One step: `f` mixes, `k` is the round constant and `w` the message word. -/
def State.step (s : State) (f : UInt32 → UInt32 → UInt32 → UInt32) (k w r : UInt32) : State :=
  ⟨s.e, rotl (s.a + f s.b s.c s.d + w + k) r + s.e, s.b, rotl s.c 10, s.d⟩

/-- Runs a line of steps, the first of which has number `i`; `round` gives the function
of each round of sixteen steps and `constants` its constant. -/
def State.line (s : State) (block : List UInt32) (round : Nat → Nat) (constants : List UInt32)
    (i : Nat) : List (Nat × UInt32) → State
  | [] => s
  | (w, r) :: rest =>
    (s.step (mix (round (i / 16))) (constants.getD (i / 16) 0) (block.getD w 0) r).line
      block round constants (i + 1) rest

/-- Mixes one block of 64 bytes into the state. -/
def State.compress (s : State) (block : Bytes) : State :=
  let ws := words block
  let l := s.line ws id leftConstants 0 leftSteps
  let r := s.line ws (4 - ·) rightConstants 0 rightSteps
  ⟨s.b + l.c + r.d, s.c + l.d + r.e, s.d + l.e + r.a, s.e + l.a + r.b, s.a + l.b + r.c⟩

/-- Mixes `n` blocks into the state. -/
def State.absorb (s : State) : Nat → Bytes → State
  | 0, _ => s
  | n + 1, m => (s.compress (m.take 64)).absorb n (m.drop 64)

/-- The bytes of the state, each word with its least significant byte first. -/
def State.toBytes (s : State) : Bytes :=
  let out := fun w => (Bytes.ofWord32 w).reverse
  out s.a ++ out s.b ++ out s.c ++ out s.d ++ out s.e

/-- A message followed by a one bit, zeros and its length in bits, least significant
byte first, in whole blocks. -/
def pad (m : Bytes) : Bytes :=
  m ++ 0x80 :: (List.replicate ((119 - m.length % 64) % 64) 0
    ++ (Bytes.ofNat 8 (8 * m.length)).reverse)

end Ripemd160

/-- The RIPEMD-160 digest of a message, 20 bytes. -/
def ripemd160 (m : Bytes) : Bytes :=
  let padded := Ripemd160.pad m
  (Ripemd160.State.initial.absorb (padded.length / 64) padded).toBytes

theorem length_ripemd160 (m : Bytes) : (ripemd160 m).length = 20 := rfl

/-- RIPEMD-160 of SHA-256. -/
def hash160 (m : Bytes) : Bytes :=
  ripemd160 (sha256 m)

theorem length_hash160 (m : Bytes) : (hash160 m).length = 20 := rfl

end Keyring
