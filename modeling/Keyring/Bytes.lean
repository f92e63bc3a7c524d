/-!
# Byte strings

A byte string is a list of bytes.  Keys, digests, payloads and encodings are all
byte strings; this file holds the two views the rest of the library needs: the
number a byte string spells (most significant byte first) and the text it spells
in UTF-8.
-/

namespace Keyring

/-- A sequence of bytes. -/
abbrev Bytes := List UInt8

namespace Bytes

/-- The number a byte string spells, most significant byte first. -/
def toNat (b : Bytes) : Nat :=
  b.foldl (fun n x => n * 256 + x.toNat) 0

/-- The `len` least significant bytes of `n`, most significant first. -/
def ofNat : (len : Nat) → (n : Nat) → Bytes
  | 0, _ => []
  | len + 1, n => UInt8.ofNat (n >>> (8 * len)) :: ofNat len n

@[simp] theorem length_ofNat (len n : Nat) : (ofNat len n).length = len := by
  induction len with
  | zero => rfl
  | succ len ih => simp [ofNat, ih]

/-- The bytes of `n` without leading zeros; the empty string for zero. -/
def minimal (n : Nat) : Bytes :=
  if n = 0 then [] else minimal (n / 256) ++ [UInt8.ofNat n]
termination_by n
decreasing_by omega

/-- The UTF-8 encoding of a text. -/
def ofString (s : String) : Bytes :=
  s.toUTF8.data.toList

/-- The text a byte string spells in UTF-8, if it is valid UTF-8. -/
def toString? (b : Bytes) : Option String :=
  String.fromUTF8? ⟨b.toArray⟩

/-- A 32-bit word from its bytes, most significant first. -/
def word32 (a b c d : UInt8) : UInt32 :=
  (a.toUInt32 <<< 24) ||| (b.toUInt32 <<< 16) ||| (c.toUInt32 <<< 8) ||| d.toUInt32

/-- The 32-bit words of a byte string, most significant byte first.  Bytes after
the last whole word are dropped. -/
def words32 : Bytes → List UInt32
  | a :: b :: c :: d :: rest => word32 a b c d :: words32 rest
  | _ => []

/-- The four bytes of a 32-bit word, most significant first. -/
def ofWord32 (w : UInt32) : Bytes :=
  [(w >>> 24).toUInt8, (w >>> 16).toUInt8, (w >>> 8).toUInt8, w.toUInt8]

/-- The eight bytes of a 64-bit word, most significant first. -/
def ofWord64 (w : UInt64) : Bytes :=
  [(w >>> 56).toUInt8, (w >>> 48).toUInt8, (w >>> 40).toUInt8, (w >>> 32).toUInt8,
   (w >>> 24).toUInt8, (w >>> 16).toUInt8, (w >>> 8).toUInt8, w.toUInt8]

/-- Bytewise exclusive or, as long as the shorter argument. -/
def xor (a b : Bytes) : Bytes :=
  List.zipWith (· ^^^ ·) a b

end Bytes

end Keyring
