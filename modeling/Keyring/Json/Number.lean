import Keyring.Bytes
import Keyring.Float64

/-!
# Numbers in JSON text

A number is kept as it is written: sign, whole digits, fraction and exponent.  Only
numbers without fraction and exponent are integers.  A number is in range if it can be
held as a 64-bit integer or as a finite floating point number.
-/

namespace Keyring.Json

/-- A number as it is written.  Digits are ASCII bytes. -/
structure NumberText where
  negative : Bool
  whole : Bytes
  fraction : Option Bytes
  /-- Whether the exponent is negative, and its digits. -/
  exponent : Option (Bool × Bytes)
  deriving DecidableEq, Repr

namespace NumberText

/-- The number that digits spell. -/
def digitsValue (digits : Bytes) : Nat :=
  digits.foldl (fun n d => 10 * n + (d.toNat - 48)) 0

/-- Whether a number is written as an integer. -/
def isInteger (t : NumberText) : Bool :=
  t.fraction.isNone && t.exponent.isNone

/-- The value of an integer without a sign. -/
def natural? (t : NumberText) : Option Nat :=
  if t.isInteger && !t.negative then some (digitsValue t.whole) else none

/-- The value of an integer; a negative zero is none. -/
def integer? (t : NumberText) : Option Int :=
  if t.isInteger then
    let n := digitsValue t.whole
    if t.negative then if n = 0 then none else some (-n) else some n
  else none

/-- Appends digits to a significand as long as it fits 64 bits; the digits left over come
back with it. -/
def pushDigits (significand : Nat) : Bytes → Nat × Bytes
  | [] => (significand, [])
  | d :: rest =>
    let next := 10 * significand + (d.toNat - 48)
    if next < UInt64.size then pushDigits next rest else (significand, d :: rest)

/-- The digits that count and the power of ten they are scaled by before the exponent. -/
def scaled (t : NumberText) : Nat × Int :=
  let (whole, dropped) := pushDigits 0 t.whole
  let fraction := t.fraction.getD []
  let (significand, left) := pushDigits whole fraction
  (significand, (dropped.length : Int) - ((fraction.length - left.length : Nat) : Int))

/-- Whether the number is in range. -/
def inRange (t : NumberText) : Bool :=
  let (significand, scale) := t.scaled
  let exponent : Int :=
    match t.exponent with
    | none => 0
    | some (true, digits) => -(digitsValue digits : Int)
    | some (false, digits) => digitsValue digits
  Float64.isFiniteProduct significand (scale + exponent)

end NumberText

end Keyring.Json
