import Keyring.Text.Blank
import Keyring.Text.Decimal
import Keyring.Timestamp.Basic

/-!
# Reading points in time

Three forms are read.  Documents use a relaxed RFC 3339: fields of one digit, white
space before them, years with a sign.  Stored rows use RFC 3339 to the letter, or a
date and a time of day without zone, which is taken as UTC.
-/

namespace Keyring.Timestamp.Read

open Text Calendar

/-- A number of at least `least` and at most `most` digits. -/
def number (least most : Nat) (cs : List Char) : Option (Nat × List Char) := do
  let ds := (cs.take most).takeWhile (digit? · |>.isSome)
  if ds.length < least then none
  return (← natural? ds, cs.drop ds.length)

/-- A number of one or two digits, white space before it skipped. -/
def field (cs : List Char) : Option (Nat × List Char) :=
  number 1 2 (trimStart cs)

/-- A year: up to four digits, or a sign and any number of digits. -/
def year (cs : List Char) : Option (Int × List Char) :=
  match trimStart cs with
  | '-' :: rest => do
    let (n, rest) ← number 1 rest.length rest
    return (-n, rest)
  | '+' :: rest => do
    let (n, rest) ← number 1 rest.length rest
    return (n, rest)
  | cs => do
    let (n, rest) ← number 1 4 cs
    return (n, rest)

/-- What follows a given character. -/
def literal (c : Char) : List Char → Option (List Char)
  | d :: rest => if d = c then some rest else none
  | [] => none

/-- Nanoseconds from a point and digits; digits after the ninth do not count. -/
def fraction (cs : List Char) : Option (Nat × List Char) :=
  match cs with
  | '.' :: rest => do
    let ds := rest.takeWhile (digit? · |>.isSome)
    let n ← natural? (ds.take 9)
    return (n * Nat.pow 10 (9 - ds.length), rest.drop ds.length)
  | _ => some (0, cs)

/-- The sign of an offset. -/
def sign : List Char → Option (Int × List Char)
  | '+' :: rest => some (1, rest)
  | '-' :: rest => some (-1, rest)
  | '\u2212' :: rest => some (-1, rest)
  | _ => none

/-- An offset from UTC in seconds: two digits of hours and two of minutes, with what
`separator` drops between them. -/
def offset (separator : List Char → Option (List Char)) (cs : List Char) :
    Option (Int × List Char) := do
  let (factor, rest) ← sign cs
  let (hours, rest) ← number 2 2 rest
  let (minutes, rest) ← number 2 2 (← separator rest)
  if 59 < minutes then none
  return (factor * (hours * 3600 + minutes * 60 : Nat), rest)

/-- Drops colons and white space. -/
def looseSeparator (cs : List Char) : Option (List Char) :=
  some (cs.dropWhile fun c => c == ':' || isBlank c)

/-- Drops one colon. -/
def strictSeparator : List Char → Option (List Char) :=
  literal ':'

/-- Whether clocks may be that many seconds ahead of UTC. -/
def isOffset (seconds : Int) : Bool :=
  seconds.natAbs < 86400

/-- The letter between date and time. -/
def isDivider (c : Char) : Bool :=
  c == 'T' || c == 't' || c == ' '

/-- Date, time and offset of a text. -/
structure Reading where
  year : Int
  month : Nat
  day : Nat
  hour : Nat
  minute : Nat
  second : Nat
  nanos : Nat
  offset : Int

/-- The point in time a reading stands for. -/
def Reading.timestamp? (r : Reading) : Option Timestamp := do
  if isOffset r.offset then
    ofLocal? (← Date.of? r.year r.month r.day) r.hour r.minute r.second r.nanos r.offset
  else none

/-- The zone of a relaxed text. -/
def looseZone (cs : List Char) : Option (Int × List Char) :=
  match cs with
  | 'Z' :: rest | 'z' :: rest => some (0, rest)
  | u :: t :: c :: rest =>
    if [u, t, c].map Char.toUpper = ['U', 'T', 'C'] then some (0, rest)
    else offset looseSeparator cs
  | _ => offset looseSeparator cs

/-- Reads relaxed RFC 3339. -/
def relaxed? (s : String) : Option Timestamp := do
  let (year, cs) ← year s.toList
  let cs ← literal '-' (trimStart cs)
  let (month, cs) ← field cs
  let cs ← literal '-' (trimStart cs)
  let (day, cs) ← field cs
  let c :: cs := cs | none
  if !isDivider c then none
  let (hour, cs) ← field cs
  let cs ← literal ':' (trimStart cs)
  let (minute, cs) ← field cs
  let cs ← literal ':' (trimStart cs)
  let (second, cs) ← field cs
  let (nanos, cs) ← fraction cs
  let (offset, cs) ← looseZone (trimStart cs)
  if !(trimStart cs).isEmpty then none
  Reading.timestamp? ⟨year, month, day, hour, minute, second, nanos, offset⟩

/-- Reads RFC 3339. -/
def strict? (s : String) : Option Timestamp := do
  let (year, cs) ← number 4 4 s.toList
  let cs ← literal '-' cs
  let (month, cs) ← number 2 2 cs
  let cs ← literal '-' cs
  let (day, cs) ← number 2 2 cs
  let c :: cs := cs | none
  if !isDivider c then none
  let (hour, cs) ← number 2 2 cs
  let cs ← literal ':' cs
  let (minute, cs) ← number 2 2 cs
  let cs ← literal ':' cs
  let (second, cs) ← number 2 2 cs
  let (nanos, cs) ← fraction cs
  let (offset, cs) ←
    match cs with
    | 'Z' :: rest | 'z' :: rest => some (0, rest)
    | _ => offset strictSeparator cs
  if !cs.isEmpty then none
  Reading.timestamp? ⟨year, month, day, hour, minute, second, nanos, offset⟩

/-- The zone of a date and time in a row: none, `Z`, or an offset, which counts only if
clocks may have it. -/
def rowZone (cs : List Char) : Option Int :=
  match cs with
  | [] | ['Z'] => some 0
  | _ => do
    let (seconds, rest) ← offset looseSeparator (trimStart cs)
    if !rest.isEmpty then none
    return if isOffset seconds then seconds else 0

/-- The seconds of a date and time in a row. -/
def rowSeconds (cs : List Char) : Option ((Nat × Nat) × List Char) := do
  let cs ← literal ':' cs
  let (second, cs) ← field cs
  let (nanos, cs) ← fraction cs
  return ((second, nanos), cs)

/-- Reads a date and time as they stand in rows, with or without seconds. -/
def row? (s : String) : Option Timestamp := do
  let (year, cs) ← year s.toList
  let cs ← literal '-' cs
  let (month, cs) ← field cs
  let cs ← literal '-' cs
  let (day, cs) ← field cs
  let cs :=
    match cs with
    | 'T' :: rest => rest
    | _ => trimStart cs
  let (hour, cs) ← field cs
  let cs ← literal ':' cs
  let (minute, cs) ← field cs
  let ((second, nanos), cs) := (rowSeconds cs).getD ((0, 0), cs)
  Reading.timestamp? ⟨year, month, day, hour, minute, second, nanos, ← rowZone cs⟩

/-- Reads a point in time as it is stored. -/
def stored? (s : String) : Option Timestamp :=
  (strict? s).or (row? s)

end Keyring.Timestamp.Read
