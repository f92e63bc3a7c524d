import Keyring.Text.Visible

/-!
# Quoted characters and texts

Diagnostics show characters and texts between quotation marks.  Line breaks, tabs,
the zero character, the backslash and the mark in use are escaped, and so is every
character that is not visible, by its code point.
-/

namespace Keyring.Text

/-- The lower-case digits of a code point. -/
def codePointDigits (n : Nat) : List Char :=
  Nat.toDigits 16 n

/-- A character as it stands between two `mark`s. -/
def escape (mark c : Char) : List Char :=
  if c = '\x00' then ['\\', '0']
  else if c = '\t' then ['\\', 't']
  else if c = '\n' then ['\\', 'n']
  else if c = '\r' then ['\\', 'r']
  else if c = '\\' ∨ c = mark then ['\\', c]
  else if isVisible c then [c]
  else ['\\', 'u', '{'] ++ codePointDigits c.toNat ++ ['}']

/-- A character between apostrophes. -/
def quoteChar (c : Char) : String :=
  String.ofList ('\'' :: (escape '\'' c ++ ['\'']))

/-- A text between quotation marks. -/
def quote (s : String) : String :=
  String.ofList ('"' :: (s.toList.flatMap (escape '"') ++ ['"']))

end Keyring.Text
