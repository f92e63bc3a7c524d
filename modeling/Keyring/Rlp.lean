import Keyring.Bytes

/-!
# Recursive length prefix encoding

Account chains write transactions as nested lists of byte strings.  Every string and
every list carries its length in front, so the encoding of an item ends where its
header says; a byte below `0x80` stands for itself.
-/

namespace Keyring

/-- A byte string or a list of items. -/
inductive Rlp
  | string (b : Bytes)
  | list (items : List Rlp)

namespace Rlp

/-- The header of a payload of `length` bytes; `base` is `0x80` for strings and `0xc0`
for lists. -/
def header (base : UInt8) (length : Nat) : Bytes :=
  if length < 56 then [base + UInt8.ofNat length]
  else
    let digits := Bytes.minimal length
    (base + 55 + UInt8.ofNat digits.length) :: digits

/-- The encoding of a byte string. -/
def encodeString (b : Bytes) : Bytes :=
  match b with
  | [x] => if x < 0x80 then [x] else header 0x80 1 ++ [x]
  | _ => header 0x80 b.length ++ b

mutual

/-- The encoding of an item. -/
def encode : Rlp → Bytes
  | .string b => encodeString b
  | .list items =>
    let payload := encodeItems items
    header 0xc0 payload.length ++ payload

/-- The encodings of items one after another. -/
def encodeItems : List Rlp → Bytes
  | [] => []
  | item :: rest => encode item ++ encodeItems rest

end

/-- A number, as the string of its bytes without leading zeros. -/
def natural (n : Nat) : Rlp :=
  .string (Bytes.minimal n)

end Rlp

end Keyring
