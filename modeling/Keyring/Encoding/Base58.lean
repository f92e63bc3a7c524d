import Keyring.Digest.Sha256

/-!
# Base58 and Base58Check

A byte string is written as a number in base 58, with one leading `1` for each leading
zero byte.  Base58Check appends the first four bytes of the double SHA-256 digest
before writing, and checks and removes them after reading.
-/

namespace Keyring.Base58

/-- The 58 digits in ascending order. -/
def alphabet : List Char :=
  "123456789ABCDEFGHJKLMNPQRSTUVWXYZabcdefghijkmnopqrstuvwxyz".toList

/-- The digit of value `v`. -/
def digit (v : Nat) : Char :=
  alphabet.getD v '1'

/-- The value of a digit. -/
def value? (c : Char) : Option Nat :=
  alphabet.idxOf? c

/-- The values of the digits of `n`, most significant first; none for zero. -/
def digitsOf (n : Nat) : List Nat :=
  if n = 0 then [] else digitsOf (n / 58) ++ [n % 58]
termination_by n
decreasing_by omega

/-- The number of elements equal to `a` at the front of a list. -/
def leading {α : Type} [DecidableEq α] (a : α) (l : List α) : Nat :=
  (l.takeWhile (· = a)).length

/-- The Base58 text of a byte string. -/
def encode (b : Bytes) : String :=
  String.ofList ((List.replicate (leading 0 b) 0 ++ digitsOf (Bytes.toNat b)).map digit)

/-- Reads a Base58 text. -/
def decode? (s : String) : Option Bytes := do
  let values ← s.toList.mapM value?
  let n := values.foldl (fun n v => n * 58 + v) 0
  return List.replicate (leading 0 values) 0 ++ Bytes.minimal n

/-- The four bytes that protect a payload. -/
def checksum (payload : Bytes) : Bytes :=
  (doubleSha256 payload).take 4

/-- The Base58Check text of a payload. -/
def encodeCheck (payload : Bytes) : String :=
  encode (payload ++ checksum payload)

/-- Reads a Base58Check text and returns the payload if its checksum is right. -/
def decodeCheck? (s : String) : Option Bytes := do
  let raw ← decode? s
  if raw.length < 4 then none
  else
    let payload := raw.take (raw.length - 4)
    if checksum payload = raw.drop (raw.length - 4) then some payload else none

end Keyring.Base58
