/-!
# The range of binary floating point

Numbers in documents may be written with fraction and exponent.  The library never
computes with such numbers, but a document with a number beyond the range of a
64-bit binary floating point number is refused, so the range has to be known exactly.
-/

namespace Keyring.Float64

/-- The number nearest to `n` with at most 53 significant bits, of two equally near ones
the one with an even last bit. -/
def round (n : Nat) : Nat :=
  let bits := n.log2 + 1
  if bits ≤ 53 then n
  else
    let unit := 1 <<< (bits - 53)
    let q := n / unit
    let r := n % unit
    if unit < 2 * r ∨ (2 * r = unit ∧ q % 2 = 1) then (q + 1) * unit else q * unit

/-- Numbers from here on round to infinity: half a unit above the largest finite number. -/
def overflowBound : Nat :=
  1 <<< 1024 - 1 <<< 970

/-- Whether `digits * 10 ^ exponent`, computed from the two rounded factors, is finite. -/
def isFiniteProduct (digits : Nat) (exponent : Int) : Bool :=
  if digits = 0 then true
  else
    match exponent with
    | .negSucc _ => true
    | .ofNat e => e ≤ 308 && round digits * round (Nat.pow 10 e) < overflowBound

/-- Whether `digits * 10 ^ exponent`, rounded once, is finite.  The power of ten is only
computed where it decides. -/
def isFinite (digits : Nat) (exponent : Int) : Bool :=
  match exponent with
  | .ofNat e => digits == 0 || (e ≤ 308 && digits * Nat.pow 10 e < overflowBound)
  | .negSucc e => digits.log2 ≤ e || digits < overflowBound * Nat.pow 10 (e + 1)

end Keyring.Float64
