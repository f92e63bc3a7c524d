import Keyring.Bytes
import Keyring.Text.Quoted

/-!
# Hexadecimal text

Bytes are written as two lower-case digits each.  Reading accepts either case and
looks at the UTF-8 bytes of the text: an odd number of bytes is reported before any
byte that is no digit, and of those the first is reported with its position.
-/

namespace Keyring.Hex

/-- Why a text is no hexadecimal text. -/
inductive Fault
  | oddLength
  /-- The byte `byte` at `position` is no hexadecimal digit. -/
  | badDigit (byte : UInt8) (position : Nat)
  deriving DecidableEq, Repr

/-- The message for a fault; an offending byte is shown as the character with that
code. -/
def Fault.message : Fault → String
  | .oddLength => "Odd number of digits"
  | .badDigit byte position =>
    "Invalid character " ++ Text.quoteChar (Char.ofNat byte.toNat) ++ " at position "
      ++ toString position

/-- The lower-case digit of a number below sixteen. -/
def digit (n : Nat) : Char :=
  if n < 10 then Char.ofNat (48 + n) else Char.ofNat (87 + n)

/-- The value of a digit of either case. -/
def value? (b : UInt8) : Option Nat :=
  let n := b.toNat
  if 48 ≤ n ∧ n ≤ 57 then some (n - 48)
  else if 97 ≤ n ∧ n ≤ 102 then some (n - 87)
  else if 65 ≤ n ∧ n ≤ 70 then some (n - 55)
  else none

/-- The digits of a byte string. -/
def digits : Bytes → List Char
  | [] => []
  | b :: rest => digit (b.toNat / 16) :: digit (b.toNat % 16) :: digits rest

/-- The hexadecimal text of a byte string. -/
def encode (b : Bytes) : String :=
  String.ofList (digits b)

/-- Reads pairs of digits, `position` bytes into the text. -/
def decodePairs (position : Nat) : Bytes → Except Fault Bytes
  | hi :: lo :: rest =>
    match value? hi, value? lo with
    | none, _ => .error (.badDigit hi position)
    | some _, none => .error (.badDigit lo (position + 1))
    | some h, some l => do
      let tail ← decodePairs (position + 2) rest
      return UInt8.ofNat (16 * h + l) :: tail
  | _ => .ok []

/-- Reads a byte string from its digits. -/
def decodeBytes (text : Bytes) : Except Fault Bytes :=
  if text.length % 2 = 1 then .error .oddLength else decodePairs 0 text

/-- Reads a hexadecimal text. -/
def decode (text : String) : Except Fault Bytes :=
  decodeBytes (Bytes.ofString text)

/-- The digits of a number, most significant first, none for zero. -/
def naturalDigits (n : Nat) : List Char :=
  if n = 0 then [] else naturalDigits (n / 16) ++ [digit (n % 16)]
termination_by n
decreasing_by omega

/-- A number with as few digits as possible. -/
def ofNat (n : Nat) : String :=
  if n = 0 then "0" else String.ofList (naturalDigits n)

/-- The number that a sequence of digits spells. -/
def toNat? (text : Bytes) : Option Nat :=
  text.foldlM (fun n b => (value? b).map (16 * n + ·)) 0

end Keyring.Hex
