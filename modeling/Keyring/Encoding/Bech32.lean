import Keyring.Bytes

/-!
# Bech32

Witness programs of version 0 are written as a human-readable part, the separator `1`,
the version, the program in groups of five bits, and six check characters.
-/

namespace Keyring.Bech32

/-- The 32 data characters in ascending order. -/
def alphabet : List Char :=
  "qpzry9x8gf2tvdw0s3jn54khce6mua7l".toList

/-- The data character of value `v`. -/
def character (v : Nat) : Char :=
  alphabet.getD v 'q'

/-- The coefficients of the check polynomial for each bit that leaves the register. -/
def generators : List Nat :=
  [0x3b6a57b2, 0x26508e6d, 0x1ea119fa, 0x3d4233dd, 0x2a1462b3]

/-- Feeds one value into the check register. -/
def step (register v : Nat) : Nat :=
  let top := register >>> 25
  let shifted := (register % 0x2000000) * 32 ^^^ v
  ((List.range 5).zip generators).foldl
    (fun r ig => if top.testBit ig.1 then r ^^^ ig.2 else r) shifted

/-- The check register after a sequence of values. -/
def polymod (values : List Nat) : Nat :=
  values.foldl step 1

/-- The values that stand for the human-readable part in the check. -/
def expand (hrp : String) : List Nat :=
  hrp.toList.map (·.toNat / 32) ++ 0 :: hrp.toList.map (·.toNat % 32)

/-- The six check values of a text. -/
def checksum (hrp : String) (values : List Nat) : List Nat :=
  let r := polymod (expand hrp ++ values ++ List.replicate 6 0) ^^^ 1
  (List.range 6).map fun i => r >>> (5 * (5 - i)) % 32

/-- The text of a human-readable part and data values. -/
def encode (hrp : String) (values : List Nat) : String :=
  hrp ++ "1" ++ String.ofList ((values ++ checksum hrp values).map character)

/-- The groups of five bits of a byte string whose length is a multiple of five. -/
def groups : Bytes → List Nat
  | a :: b :: c :: d :: e :: rest =>
    let n := Bytes.toNat [a, b, c, d, e]
    (List.range 8).map (fun i => n >>> (5 * (7 - i)) % 32) ++ groups rest
  | _ => []

/-- The address text of a 20-byte witness program of version 0. -/
def encodeWitnessV0 (hrp : String) (program : Bytes) : String :=
  encode hrp (0 :: groups program)

end Keyring.Bech32
