import Keyring.Bytes

/-!
# Strings in JSON text

Between its quotation marks a string is written in UTF-8, with escapes for the marks,
the backslash and control characters.  Writing escapes only what has to be escaped.
Reading accepts every escape of RFC 8259 and refuses invalid UTF-8 and surrogates
that are not paired.
-/

namespace Keyring.Json.Text

/-- The value of a hexadecimal digit of either case. -/
def hexValue? (b : UInt8) : Option Nat :=
  let n := b.toNat
  if 48 ≤ n ∧ n ≤ 57 then some (n - 48)
  else if 97 ≤ n ∧ n ≤ 102 then some (n - 87)
  else if 65 ≤ n ∧ n ≤ 70 then some (n - 55)
  else none

/-- The value of four hexadecimal digits. -/
def hex4? (a b c d : UInt8) : Option Nat := do
  return (((← hexValue? a) * 16 + (← hexValue? b)) * 16 + (← hexValue? c)) * 16 + (← hexValue? d)

/-- The byte a letter after a backslash stands for. -/
def simpleEscape? (b : UInt8) : Option UInt8 :=
  match b with
  | 0x22 => some 0x22
  | 0x5c => some 0x5c
  | 0x2f => some 0x2f
  | 0x62 => some 0x08
  | 0x66 => some 0x0c
  | 0x6e => some 0x0a
  | 0x72 => some 0x0d
  | 0x74 => some 0x09
  | _ => none

/-- The UTF-8 encoding of a code point that is no surrogate. -/
def utf8 (n : Nat) : Bytes :=
  Bytes.ofString (String.singleton (Char.ofNat n))

/-- The bytes a written string stands for: escapes are replaced, all else is kept. -/
def unescape? : Bytes → Option Bytes
  | [] => some []
  | 0x5c :: 0x75 :: a :: b :: c :: d :: rest => do
    let n ← hex4? a b c d
    if 0xdc00 ≤ n ∧ n ≤ 0xdfff then none
    else if 0xd800 ≤ n ∧ n ≤ 0xdbff then
      match rest with
      | 0x5c :: 0x75 :: e :: f :: g :: h :: rest => do
        let m ← hex4? e f g h
        if 0xdc00 ≤ m ∧ m ≤ 0xdfff then
          return utf8 (0x10000 + (n - 0xd800) * 0x400 + (m - 0xdc00)) ++ (← unescape? rest)
        else none
      | _ => none
    else return utf8 n ++ (← unescape? rest)
  | 0x5c :: b :: rest => do return (← simpleEscape? b) :: (← unescape? rest)
  | [0x5c] => none
  | b :: rest => do return b :: (← unescape? rest)

/-- The text that a written string stands for. -/
def decode? (raw : Bytes) : Option String :=
  (unescape? raw).bind Bytes.toString?

/-- A lower-case hexadecimal digit. -/
def hexDigit (n : Nat) : Char :=
  if n < 10 then Char.ofNat (48 + n) else Char.ofNat (87 + n)

/-- A character as it is written in a string. -/
def escapeChar (c : Char) : List Char :=
  if c = '"' then ['\\', '"']
  else if c = '\\' then ['\\', '\\']
  else if c = '\x08' then ['\\', 'b']
  else if c = '\t' then ['\\', 't']
  else if c = '\n' then ['\\', 'n']
  else if c = '\x0c' then ['\\', 'f']
  else if c = '\r' then ['\\', 'r']
  else if c.toNat < 0x20 then
    ['\\', 'u', '0', '0', hexDigit (c.toNat / 16), hexDigit (c.toNat % 16)]
  else [c]

/-- A text as it is written, between its quotation marks. -/
def escape (cs : List Char) : List Char :=
  cs.flatMap escapeChar

end Keyring.Json.Text
