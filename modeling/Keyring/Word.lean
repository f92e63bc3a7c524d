import Keyring.Bytes

/-!
# Words of 256 bits

Private keys, digests, the halves of a signature and the amounts of an account chain
are all words of 256 bits, written as 32 bytes with the most significant byte first.
-/

namespace Keyring

/-- A word of 256 bits. -/
abbrev Word256 := BitVec 256

namespace Word256

/-- The word a byte string spells, modulo `2 ^ 256`. -/
def ofBytes (b : Bytes) : Word256 :=
  BitVec.ofNat 256 (Bytes.toNat b)

/-- The word a byte string of exactly 32 bytes spells. -/
def ofBytes? (b : Bytes) : Option Word256 :=
  if b.length = 32 then some (ofBytes b) else none

/-- The 32 bytes of a word. -/
def toBytes (w : Word256) : Bytes :=
  Bytes.ofNat 32 w.toNat

end Word256

end Keyring
