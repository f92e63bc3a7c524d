import Keyring.Float64
import Keyring.Hex
import Keyring.Timestamp.Calendar

/-!
# The smallest parts of TOML documents

Each function here reads one part from the front of a text and answers what follows.
White space is blanks and tabs; a line ends with a line feed, which a carriage return may
precede.
-/

namespace Keyring.Toml

/-- Whether a character is white space inside a line. -/
def isBlank (c : Char) : Bool :=
  c == ' ' || c == '\t'

/-- The text after leading white space. -/
def skipBlanks (cs : List Char) : List Char :=
  cs.dropWhile isBlank

/-- Whether a character may stand in comments and literal strings. -/
def isPlain (c : Char) : Bool :=
  c == '\t' || (' ' ≤ c && c ≤ '~') || 0x80 ≤ c.toNat

/-- What follows the end of a line. -/
def newline? : List Char → Option (List Char)
  | '\n' :: rest => some rest
  | '\r' :: '\n' :: rest => some rest
  | _ => none

/-- The text after a comment, if there is one. -/
def skipComment : List Char → List Char
  | '#' :: rest => rest.dropWhile isPlain
  | cs => cs

/-- What follows the end of a line or of the document; white space and a comment may come
before it. -/
def lineEnd? (cs : List Char) : Option (List Char) :=
  match skipComment (skipBlanks cs) with
  | [] => some []
  | rest => newline? rest

/-- The text after white space, line ends and comments; a comment ends its line. -/
def skipLines : (fuel : Nat) → List Char → List Char
  | 0, cs => cs
  | fuel + 1, cs =>
    match newline? (skipComment (skipBlanks cs)) with
    | some rest => skipLines fuel rest
    | none => skipBlanks cs

/-! ## Strings -/

/-- The character of a code point given by hexadecimal digits. -/
def codePoint? (digits : List Char) : Option Char := do
  let n ← Hex.toNat? (digits.map fun c => if c.toNat < 128 then UInt8.ofNat c.toNat else 0)
  if h : n.isValidChar then some (Char.ofNatAux n h) else none

/-- The character of an escape, after its backslash. -/
def escape? : List Char → Option (Char × List Char)
  | 'b' :: rest => some ('\x08', rest)
  | 't' :: rest => some ('\t', rest)
  | 'n' :: rest => some ('\n', rest)
  | 'f' :: rest => some ('\x0c', rest)
  | 'r' :: rest => some ('\r', rest)
  | '"' :: rest => some ('"', rest)
  | '\\' :: rest => some ('\\', rest)
  | 'u' :: a :: b :: c :: d :: rest => (codePoint? [a, b, c, d]).map (·, rest)
  | 'U' :: a :: b :: c :: d :: e :: f :: g :: h :: rest =>
    (codePoint? [a, b, c, d, e, f, g, h]).map (·, rest)
  | _ => none

/-- Puts a character before what was read. -/
def consTo (c : Char) (r : List Char × List Char) : List Char × List Char :=
  (c :: r.1, r.2)

/-- The inside of a string between quotation marks. -/
def basic? : (fuel : Nat) → List Char → Option (List Char × List Char)
  | 0, _ => none
  | _, [] => none
  | _, '"' :: rest => some ([], rest)
  | fuel + 1, '\\' :: rest => do
    let (c, rest) ← escape? rest
    return consTo c (← basic? fuel rest)
  | fuel + 1, c :: rest => if isPlain c then (basic? fuel rest).map (consTo c) else none

/-- The inside of a string between apostrophes. -/
def literal? : List Char → Option (List Char × List Char)
  | [] => none
  | '\'' :: rest => some ([], rest)
  | c :: rest => if isPlain c then (literal? rest).map (consTo c) else none

/-- The end of a string of several lines at a run of `mark`s: two of them may belong to the
string. -/
def closing? (mark : Char) (cs : List Char) : Option (List Char × List Char) :=
  let run := cs.takeWhile (· == mark)
  if 3 ≤ run.length ∧ run.length ≤ 5 then
    some (List.replicate (run.length - 3) mark, cs.drop run.length)
  else none

/-- The text after white space and line ends. -/
def skipSpace : List Char → List Char
  | '\r' :: '\n' :: rest => skipSpace rest
  | c :: rest => if isBlank c || c == '\n' then skipSpace rest else c :: rest
  | [] => []

/-- The text after a line end and all white space that follows it. -/
def joinLines? (cs : List Char) : Option (List Char) :=
  (newline? (skipBlanks cs)).map skipSpace

/-- The inside of a string of several lines.  `escapes` says whether a backslash starts an
escape; one at the end of a line joins it to the next text. -/
def lines? (mark : Char) (escapes : Bool) :
    (fuel : Nat) → List Char → Option (List Char × List Char)
  | 0, _ => none
  | _, [] => none
  | fuel + 1, c :: rest =>
    if c = mark then
      match closing? mark (c :: rest) with
      | some r => some r
      | none =>
        if rest.take 2 = [mark, mark] then none else (lines? mark escapes fuel rest).map (consTo c)
    else if c = '\\' ∧ escapes then
      match joinLines? rest with
      | some rest => lines? mark escapes fuel rest
      | none => do
        let (c, rest) ← escape? rest
        return consTo c (← lines? mark escapes fuel rest)
    else
      match newline? (c :: rest) with
      | some rest => (lines? mark escapes fuel rest).map (consTo '\n')
      | none => if isPlain c then (lines? mark escapes fuel rest).map (consTo c) else none

/-- The text without a line end at its front. -/
def dropNewline (cs : List Char) : List Char :=
  (newline? cs).getD cs

/-- A string of one line. -/
def shortString? : List Char → Option (String × List Char)
  | '"' :: rest => (basic? (rest.length + 1) rest).map fun r => (String.ofList r.1, r.2)
  | '\'' :: rest => (literal? rest).map fun r => (String.ofList r.1, r.2)
  | _ => none

/-- A string of one or several lines. -/
def string? (cs : List Char) : Option (String × List Char) :=
  let long (mark : Char) (escapes : Bool) (rest : List Char) : Option (String × List Char) :=
    (lines? mark escapes (rest.length + 1) (dropNewline rest)).map fun r =>
      (String.ofList r.1, r.2)
  match cs with
  | '"' :: '"' :: '"' :: rest => long '"' true rest
  | '\'' :: '\'' :: '\'' :: rest => long '\'' false rest
  | _ => shortString? cs

/-! ## Keys -/

/-- Whether a character may stand in a key without quotation marks. -/
def isKeyChar (c : Char) : Bool :=
  c.isAlphanum || c == '-' || c == '_'

/-- One part of a key. -/
def keyPart? (cs : List Char) : Option (String × List Char) :=
  match cs with
  | '"' :: _ | '\'' :: _ => shortString? cs
  | _ =>
    let part := cs.takeWhile isKeyChar
    if part.isEmpty then none else some (String.ofList part, cs.drop part.length)

/-- The parts of a key with points between them; white space may surround them. -/
def keyParts? : (fuel : Nat) → List Char → Option (List String × List Char)
  | 0, _ => none
  | fuel + 1, cs => do
    let (part, rest) ← keyPart? (skipBlanks cs)
    match skipBlanks rest with
    | '.' :: rest => do
      let (parts, rest) ← keyParts? fuel rest
      return (part :: parts, rest)
    | rest => some ([part], rest)

/-- Keys and values with this many levels are refused. -/
def depthLimit : Nat :=
  80

/-- A key. -/
def key? (cs : List Char) : Option (List String × List Char) := do
  let (parts, rest) ← keyParts? (cs.length + 1) cs
  if parts.length < depthLimit then some (parts, rest) else none

/-! ## Numbers and times -/

/-- The value of a digit in a base. -/
def digit? (base : Nat) (c : Char) : Option Nat :=
  if c.toNat < 128 then
    match Hex.value? (UInt8.ofNat c.toNat) with
    | some n => if n < base then some n else none
    | none => none
  else none

/-- Digits that continue a number; a line may stand between two of them. -/
def moreDigits? (base : Nat) : List Char → Option (List Nat × List Char)
  | [] => some ([], [])
  | '_' :: c :: rest => do
    let d ← digit? base c
    let (ds, rest) ← moreDigits? base rest
    return (d :: ds, rest)
  | c :: rest =>
    match digit? base c with
    | some d => (moreDigits? base rest).map fun r => (d :: r.1, r.2)
    | none => if c = '_' then none else some ([], c :: rest)

/-- Digits, at least one. -/
def digits? (base : Nat) : List Char → Option (List Nat × List Char)
  | [] => none
  | c :: rest => do
    let d ← digit? base c
    let (ds, rest) ← moreDigits? base rest
    return (d :: ds, rest)

/-- Decimal digits without leading zeros. -/
def whole? : List Char → Option (List Nat × List Char)
  | '0' :: rest => some ([0], rest)
  | cs => digits? 10 cs

/-- The number that digits spell. -/
def spell (base : Nat) (ds : List Nat) : Nat :=
  ds.foldl (fun n d => base * n + d) 0

/-- A sign, if there is one; answers whether it is a minus. -/
def sign : List Char → Bool × List Char
  | '-' :: rest => (true, rest)
  | '+' :: rest => (false, rest)
  | cs => (false, cs)

/-- The exponent of a number, if there is one. -/
def exponent? (cs : List Char) : Option (Option Int × List Char) :=
  match cs with
  | c :: rest =>
    if c = 'e' ∨ c = 'E' then do
      let (negative, rest) := sign rest
      let (ds, rest) ← digits? 10 rest
      let n : Int := spell 10 ds
      return (some (if negative then -n else n), rest)
    else some (none, cs)
  | [] => some (none, [])

/-- The digits after a point, if there is one. -/
def fraction? (cs : List Char) : Option (Option (List Nat) × List Char) :=
  match cs with
  | '.' :: rest => (digits? 10 rest).map fun r => (some r.1, r.2)
  | _ => some (none, cs)

/-- A number: an integer, none for a floating point number. -/
abbrev Number := Option Int

/-- An integer of 64 bits. -/
def integer? (negative : Bool) (n : Nat) : Option Int :=
  let i : Int := if negative then -n else n
  if Int64.minValue.toInt ≤ i ∧ i ≤ Int64.maxValue.toInt then some i else none

/-- An integer in a base that is a power of two. -/
def based? (base : Nat) (cs : List Char) : Option (Number × List Char) := do
  let (ds, rest) ← digits? base cs
  return (some (← integer? false (spell base ds)), rest)

/-- A decimal number.  A positive one beyond the range of floating point is refused. -/
def decimal? (cs : List Char) : Option (Number × List Char) := do
  let (negative, cs) := sign cs
  match cs with
  | 'i' :: 'n' :: 'f' :: rest | 'n' :: 'a' :: 'n' :: rest => some (none, rest)
  | _ =>
    let (whole, rest) ← whole? cs
    let (fraction, rest) ← fraction? rest
    let (exponent, rest) ← exponent? rest
    if fraction.isNone && exponent.isNone then
      return (some (← integer? negative (spell 10 whole)), rest)
    let part := fraction.getD []
    let scale := exponent.getD 0 - (part.length : Int)
    if negative || Float64.isFinite (spell 10 (whole ++ part)) scale then some (none, rest)
    else none

/-- A number. -/
def number? : List Char → Option (Number × List Char)
  | '0' :: 'x' :: rest => based? 16 rest
  | '0' :: 'o' :: rest => based? 8 rest
  | '0' :: 'b' :: rest => based? 2 rest
  | cs => decimal? cs

/-- A number of exactly `width` digits. -/
def fixed? (width : Nat) (cs : List Char) : Option (Nat × List Char) := do
  let ds ← (cs.take width).mapM (digit? 10)
  if ds.length = width then some (spell 10 ds, cs.drop width) else none

/-- What follows a given character. -/
def after? (c : Char) : List Char → Option (List Char)
  | d :: rest => if d = c then some rest else none
  | [] => none

/-- What follows a date. -/
def date? (cs : List Char) : Option (List Char) := do
  let (year, cs) ← fixed? 4 cs
  let (month, cs) ← fixed? 2 (← after? '-' cs)
  let (day, cs) ← fixed? 2 (← after? '-' cs)
  let _ ← Calendar.Date.of? year month day
  return cs

/-- What follows a time of day. -/
def clock? (cs : List Char) : Option (List Char) := do
  let (hour, cs) ← fixed? 2 cs
  let (minute, cs) ← fixed? 2 (← after? ':' cs)
  let (second, cs) ← fixed? 2 (← after? ':' cs)
  if 23 < hour ∨ 59 < minute ∨ 60 < second then none
  match cs with
  | '.' :: rest =>
    let front := rest.takeWhile fun c => (digit? 10 c).isSome
    if front.isEmpty then none else some (rest.drop front.length)
  | _ => some cs

/-- What follows an offset from UTC. -/
def offset? : List Char → Option (List Char)
  | [] => none
  | c :: cs =>
    if c = 'Z' ∨ c = 'z' then some cs
    else if c = '+' ∨ c = '-' then do
      let (hour, cs) ← fixed? 2 cs
      let (minute, cs) ← fixed? 2 (← after? ':' cs)
      if 23 < hour ∨ 59 < minute then none
      return cs
    else none

/-- What follows the time of day of a date, with or without an offset. -/
def clockOfDate? : List Char → Option (List Char)
  | [] => none
  | c :: cs =>
    if c = 'T' ∨ c = 't' ∨ c = ' ' then (clock? cs).map fun cs => (offset? cs).getD cs
    else none

/-- What follows a date, a time of day or both. -/
def time? (cs : List Char) : Option (List Char) :=
  match date? cs with
  | some rest => some ((clockOfDate? rest).getD rest)
  | none => clock? cs

end Keyring.Toml
