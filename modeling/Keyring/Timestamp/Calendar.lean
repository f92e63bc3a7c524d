/-!
# The Gregorian calendar

Days are counted from the first day of the year 1, before and after it.  A date is read
from its day number by guessing the year from the mean length of a year, which is off by
one at most.
-/

namespace Keyring.Calendar

/-- Whether a year has 366 days. -/
def isLeap (year : Int) : Bool :=
  year % 4 == 0 && (year % 100 != 0 || year % 400 == 0)

/-- The number of days of a month, counted from 1. -/
def daysInMonth (year : Int) (month : Nat) : Nat :=
  if month = 2 then if isLeap year then 29 else 28
  else if month = 4 ∨ month = 6 ∨ month = 9 ∨ month = 11 then 30
  else 31

/-- A date. -/
structure Date where
  year : Int
  month : Nat
  day : Nat
  deriving DecidableEq, Repr

/-- The first and the last year that dates may have. -/
def yearBounds : Int × Int :=
  (-262143, 262142)

/-- The date of a year, month and day, if there is one. -/
def Date.of? (year : Int) (month day : Nat) : Option Date :=
  if yearBounds.1 ≤ year ∧ year ≤ yearBounds.2 ∧ 1 ≤ month ∧ month ≤ 12 ∧ 1 ≤ day
      ∧ day ≤ daysInMonth year month then
    some ⟨year, month, day⟩
  else none

/-- The number of the first day of a year. -/
def yearStart (year : Int) : Int :=
  let y := year - 1
  365 * y + y / 4 - y / 100 + y / 400

/-- The number of days before the first of a month, in its year. -/
def daysBefore (year : Int) (month : Nat) : Nat :=
  (List.range (month - 1)).foldl (fun days m => days + daysInMonth year (m + 1)) 0

/-- The number of a date. -/
def Date.dayNumber (d : Date) : Int :=
  yearStart d.year + daysBefore d.year d.month + (d.day - 1 : Nat)

/-- The year of a day. -/
def yearOf (n : Int) : Int :=
  let guess := 400 * n / 146097 + 1
  if n < yearStart guess then guess - 1
  else if yearStart (guess + 1) ≤ n then guess + 1
  else guess

/-- The month and day of a day in its year; `month` is the first month to be tried. -/
def monthDay (year : Int) : (tries : Nat) → (month day : Nat) → Nat × Nat
  | 0, month, day => (month, day + 1)
  | tries + 1, month, day =>
    let length := daysInMonth year month
    if day < length then (month, day + 1) else monthDay year tries (month + 1) (day - length)

/-- The date of a day number. -/
def Date.ofDayNumber (n : Int) : Date :=
  let year := yearOf n
  let (month, day) := monthDay year 11 1 (n - yearStart year).toNat
  ⟨year, month, day⟩

/-- The number of the first day of 1970. -/
def epochDay : Int :=
  719162

end Keyring.Calendar
