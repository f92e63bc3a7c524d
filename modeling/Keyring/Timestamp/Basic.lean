import Keyring.Timestamp.Calendar

/-!
# Points in time

A point in time is a number of seconds since the start of 1970 and nanoseconds after
them.  A leap second is written as the second 60; its nanoseconds start at `10 ^ 9`.
Times are written in UTC with as many digits of a second as they need, in groups of
three.
-/

namespace Keyring

/-- A point in time. -/
structure Timestamp where
  seconds : Int
  nanos : Nat
  deriving DecidableEq, Repr

namespace Timestamp

open Calendar

/-- The number of nanoseconds of a second. -/
def second : Nat :=
  1000000000

/-- A number with at least `width` digits. -/
def padded (width n : Nat) : List Char :=
  let ds := Nat.toDigits 10 n
  List.replicate (width - ds.length) '0' ++ ds

/-- A year; years outside of four digits carry a sign. -/
def yearText (year : Int) : List Char :=
  if 0 ≤ year ∧ year ≤ 9999 then padded 4 year.toNat
  else (if year < 0 then '-' else '+') :: padded 4 year.natAbs

/-- The digits of a second with a point before them, none for a whole second. -/
def fractionText (nanos : Nat) : List Char :=
  if nanos = 0 then []
  else if nanos % 1000000 = 0 then '.' :: padded 3 (nanos / 1000000)
  else if nanos % 1000 = 0 then '.' :: padded 6 (nanos / 1000)
  else '.' :: padded 9 nanos

/-- The text of a point in time up to its zone. -/
def localText (t : Timestamp) : List Char :=
  let date := Date.ofDayNumber (t.seconds / 86400 + epochDay)
  let clock := (t.seconds % 86400).toNat
  let leap := if second ≤ t.nanos then 1 else 0
  yearText date.year ++ '-' :: padded 2 date.month ++ '-' :: padded 2 date.day
    ++ 'T' :: padded 2 (clock / 3600) ++ ':' :: padded 2 (clock / 60 % 60)
    ++ ':' :: padded 2 (clock % 60 + leap) ++ fractionText (t.nanos - leap * second)

/-- The text of a point in time. -/
def text (t : Timestamp) : String :=
  String.ofList (t.localText ++ ['Z'])

/-- The point in time at which clocks that are `offset` seconds ahead of UTC show a date
and time.  The second 60 is the leap second after the second 59. -/
def ofLocal? (date : Date) (hour minute sec nanos : Nat) (offset : Int) : Option Timestamp :=
  if hour ≤ 23 ∧ minute ≤ 59 ∧ sec ≤ 60 then
    let leap := if sec = 60 then 1 else 0
    let clock : Int := (hour * 3600 + minute * 60 + (sec - leap) : Nat)
    let seconds := (date.dayNumber - epochDay) * 86400 + clock - offset
    let year := (Date.ofDayNumber (seconds / 86400 + epochDay)).year
    if yearBounds.1 ≤ year ∧ year ≤ yearBounds.2 then
      some ⟨seconds, nanos + leap * second⟩
    else none
  else none

/-- The seconds of the first and the last representable point in time. -/
def secondBounds : Int × Int :=
  ((yearStart yearBounds.1 - epochDay) * 86400,
   (yearStart (yearBounds.2 + 1) - epochDay) * 86400 - 1)

/-- The point in time a number of seconds after the start of 1970. -/
def ofSeconds? (seconds : Int) : Option Timestamp :=
  if secondBounds.1 ≤ seconds ∧ seconds ≤ secondBounds.2 then some ⟨seconds, 0⟩ else none

end Timestamp

end Keyring
