/-!
# Decimal numbers in text

Numbers below a bound are read from an optional plus sign and at least one decimal
digit; leading zeros are allowed.
-/

namespace Keyring.Text

/-- The value of a decimal digit. -/
def digit? (c : Char) : Option Nat :=
  if '0' ≤ c ∧ c ≤ '9' then some (c.toNat - 48) else none

/-- The number that a sequence of digits spells; none without digits. -/
def natural? : List Char → Option Nat
  | [] => none
  | cs => cs.foldlM (fun n c => (digit? c).map (10 * n + ·)) 0

/-- Reads a number below `bound`. -/
def unsigned? (bound : Nat) (cs : List Char) : Option Nat := do
  let digits :=
    match cs with
    | '+' :: rest => rest
    | _ => cs
  let n ← natural? digits
  if n < bound then some n else none

/-- Reads a number of 32 bits. -/
def uint32? (cs : List Char) : Option UInt32 :=
  (unsigned? UInt32.size cs).map UInt32.ofNat

/-- Reads a number of 64 bits. -/
def uint64? (cs : List Char) : Option UInt64 :=
  (unsigned? UInt64.size cs).map UInt64.ofNat

/-- The parts of a text between separators, at least one. -/
def split (separator : Char) : List Char → List (List Char)
  | [] => [[]]
  | c :: cs =>
    if c = separator then [] :: split separator cs
    else
      match split separator cs with
      | part :: parts => (c :: part) :: parts
      | [] => [[c]]

end Keyring.Text
