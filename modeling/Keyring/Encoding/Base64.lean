import Keyring.Bytes

/-!
# Base64

Reading of standard Base64 text.  Only the canonical form is accepted: whole groups
of four characters, padding exactly where it is needed, and no bits set beyond the
last byte.
-/

namespace Keyring.Base64

/-- The value of a data character. -/
def value? (c : Char) : Option Nat :=
  if 'A' ≤ c ∧ c ≤ 'Z' then some (c.toNat - 65)
  else if 'a' ≤ c ∧ c ≤ 'z' then some (c.toNat - 71)
  else if '0' ≤ c ∧ c ≤ '9' then some (c.toNat + 4)
  else if c = '+' then some 62
  else if c = '/' then some 63
  else none

/-- Reads groups of four characters; only the last may be padded. -/
def decodeGroups : List Char → Option Bytes
  | [] => some []
  | [a, b, '=', '='] => do
    let n := (← value? a) * 64 + (← value? b)
    if n % 16 = 0 then some (Bytes.ofNat 1 (n / 16)) else none
  | [a, b, c, '='] => do
    let n := ((← value? a) * 64 + (← value? b)) * 64 + (← value? c)
    if n % 4 = 0 then some (Bytes.ofNat 2 (n / 4)) else none
  | a :: b :: c :: d :: rest => do
    let n := (((← value? a) * 64 + (← value? b)) * 64 + (← value? c)) * 64 + (← value? d)
    return Bytes.ofNat 3 n ++ (← decodeGroups rest)
  | _ => none

/-- Reads a Base64 text. -/
def decode? (s : String) : Option Bytes :=
  decodeGroups s.toList

end Keyring.Base64
