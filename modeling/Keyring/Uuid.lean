import Keyring.Hex

/-!
# Universally unique identifiers

Wallets and mnemonics are named by identifiers of 128 bits.  Their text is 32 digits in
five groups with hyphens between them; it may also be read without hyphens, in braces,
or as a URN.
-/

namespace Keyring

/-- An identifier of 128 bits. -/
abbrev Uuid := BitVec 128

namespace Uuid

/-- The sizes of the groups of digits. -/
def groups : List Nat :=
  [8, 4, 4, 4, 12]

/-- Groups of digits with hyphens between them. -/
def hyphenate : List Nat → List Char → List Char
  | [], _ => []
  | [n], ds => ds.take n
  | n :: ns, ds => ds.take n ++ '-' :: hyphenate ns (ds.drop n)

/-- The text of an identifier. -/
def text (u : Uuid) : String :=
  String.ofList (hyphenate groups (Hex.digits (Bytes.ofNat 16 u.toNat)))

/-- The digits of a hyphenated text, if the hyphens are where they belong. -/
def unhyphenate? : List Nat → Bytes → Option Bytes
  | [], [] => some []
  | [], _ => none
  | [n], ds => if ds.length = n then some ds else none
  | n :: ns, ds =>
    match ds.drop n with
    | 0x2d :: rest => (unhyphenate? ns rest).map (ds.take n ++ ·)
    | _ => none

/-- The identifier that 32 digits spell. -/
def ofDigits? (ds : Bytes) : Option Uuid :=
  if ds.length = 32 then (Hex.toNat? ds).map (BitVec.ofNat 128) else none

/-- Reads a hyphenated identifier. -/
def ofHyphenated? (b : Bytes) : Option Uuid :=
  (unhyphenate? groups b).bind ofDigits?

/-- The text that marks an identifier as a URN. -/
def urnPrefix : Bytes :=
  Bytes.ofString "urn:uuid:"

/-- Reads an identifier. -/
def ofText? (s : String) : Option Uuid :=
  let b := Bytes.ofString s
  match b.length with
  | 32 => ofDigits? b
  | 36 => ofHyphenated? b
  | 38 =>
    if b.head? = some 0x7b ∧ b.getLast? = some 0x7d then ofHyphenated? ((b.drop 1).take 36)
    else none
  | 45 => if urnPrefix.isPrefixOf b then ofHyphenated? (b.drop 9) else none
  | _ => none

end Uuid

end Keyring
