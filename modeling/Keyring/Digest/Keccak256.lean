import Keyring.Bytes

/-!
# Keccak-256

The sponge of the Keccak submission with a rate of 136 bytes and a digest of 32
bytes.  Padding sets the first bit after the message and the last bit of the last
block, without the domain bits that SHA-3 adds.  A state is a list of 25 lanes; lane
`x + 5 * y` stands at column `x` of row `y`.
-/

namespace Keyring

namespace Keccak256

/-- The state of the sponge: 25 lanes of 64 bits. -/
abbrev State := List UInt64

/-- The 24 round constants. -/
def roundConstants : List UInt64 :=
  [0x0000000000000001, 0x0000000000008082, 0x800000000000808a, 0x8000000080008000,
   0x000000000000808b, 0x0000000080000001, 0x8000000080008081, 0x8000000000008009,
   0x000000000000008a, 0x0000000000000088, 0x0000000080008009, 0x000000008000000a,
   0x000000008000808b, 0x800000000000008b, 0x8000000000008089, 0x8000000000008003,
   0x8000000000008002, 0x8000000000000080, 0x000000000000800a, 0x800000008000000a,
   0x8000000080008081, 0x8000000000008080, 0x0000000080000001, 0x8000000080008008]

/-- How far each lane is rotated. -/
def rotations : List UInt64 :=
  [0, 1, 62, 28, 27, 36, 44, 6, 55, 20, 3, 10, 43, 25, 39, 41, 45, 15, 21, 8, 18, 2, 61, 56, 14]

/-- Rotation to the left by `k < 64` places. -/
def rotl (x k : UInt64) : UInt64 :=
  if k = 0 then x else (x <<< k) ||| (x >>> (64 - k))

/-- The lane at position `i`. -/
def lane (s : State) (i : Nat) : UInt64 :=
  s.getD i 0

/-- The parity of column `x`. -/
def parity (s : State) (x : Nat) : UInt64 :=
  lane s x ^^^ lane s (x + 5) ^^^ lane s (x + 10) ^^^ lane s (x + 15) ^^^ lane s (x + 20)

/-- Adds to every lane the parities of two neighbouring columns. -/
def theta (s : State) : State :=
  let columns := (List.range 5).map (parity s)
  let effect := (List.range 5).map fun x =>
    lane columns ((x + 4) % 5) ^^^ rotl (lane columns ((x + 1) % 5)) 1
  s.zipWith (· ^^^ ·) (effect ++ effect ++ effect ++ effect ++ effect)

/-- Rotates every lane and moves it to its new place. -/
def rhoPi (s : State) : State :=
  let rotated := s.zipWith rotl rotations
  (List.range 25).map fun i =>
    let x := i % 5
    lane rotated ((x + 3 * (i / 5)) % 5 + 5 * x)

/-- Combines each lane with the next two of its row. -/
def chi (s : State) : State :=
  (List.range 25).map fun i =>
    let row := i - i % 5
    lane s i ^^^ (~~~lane s (row + (i + 1) % 5) &&& lane s (row + (i % 5 + 2) % 5))

/-- Adds a round constant to the first lane. -/
def iota (c : UInt64) : State → State
  | [] => []
  | x :: rest => (x ^^^ c) :: rest

/-- All 24 rounds. -/
def permute (s : State) : State :=
  roundConstants.foldl (fun s c => iota c (chi (rhoPi (theta s)))) s

/-- The 64-bit words of a byte string, least significant byte first. -/
def words : Bytes → List UInt64
  | a :: b :: c :: d :: e :: f :: g :: h :: rest =>
    (((Bytes.word32 h g f e).toUInt64 <<< 32) ||| (Bytes.word32 d c b a).toUInt64) :: words rest
  | _ => []

/-- Adds one block of 136 bytes to the state and permutes it. -/
def absorbBlock (s : State) (block : Bytes) : State :=
  permute (s.zipWith (· ^^^ ·) (words block ++ List.replicate 8 0))

/-- Absorbs `n` blocks. -/
def absorb (s : State) : Nat → Bytes → State
  | 0, _ => s
  | n + 1, m => absorb (absorbBlock s (m.take 136)) n (m.drop 136)

/-- A message with its padding, in whole blocks. -/
def pad (m : Bytes) : Bytes :=
  let gap := 136 - m.length % 136
  if gap = 1 then m ++ [0x81] else m ++ 0x01 :: (List.replicate (gap - 2) 0 ++ [0x80])

/-- The first 32 bytes of a state. -/
def squeeze (s : State) : Bytes :=
  let out := fun i => (Bytes.ofWord64 (lane s i)).reverse
  out 0 ++ out 1 ++ out 2 ++ out 3

end Keccak256

/-- The Keccak-256 digest of a message, 32 bytes. -/
def keccak256 (m : Bytes) : Bytes :=
  let padded := Keccak256.pad m
  Keccak256.squeeze (Keccak256.absorb (List.replicate 25 0) (padded.length / 136) padded)

theorem length_keccak256 (m : Bytes) : (keccak256 m).length = 32 := rfl

end Keyring
