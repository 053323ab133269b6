/-!
# Moments of time

A moment is a number of milliseconds since the beginning of the year 1970, in universal time. It is
written with its date in the Gregorian calendar, which repeats every 146097 days, and its time of
day in seconds.
-/

namespace TestImpact

/-- Milliseconds since the beginning of the year 1970. -/
structure Moment where
  milliseconds : Int
  deriving DecidableEq, Repr

namespace Calendar

/-- A day of the Gregorian calendar. -/
structure Date where
  year : Int
  month : Nat
  day : Nat
  deriving DecidableEq, Repr

/-- The days of a period of 400 years. -/
def daysPerPeriod : Int := 146097

/-- The date of the day with a number, counted from the first of January 1970. Years are counted
from March here, so that a leap day ends its year. -/
def dateOfDay (day : Int) : Date :=
  let shifted := day + 719468
  let period := shifted.fdiv daysPerPeriod
  let n := (shifted.fmod daysPerPeriod).toNat
  let year := (n - n / 1460 + n / 36524 - n / 146096) / 365
  let dayOfYear := n - (365 * year + year / 4 - year / 100)
  let monthFromMarch := (5 * dayOfYear + 2) / 153
  let dayOfMonth := dayOfYear - (153 * monthFromMarch + 2) / 5 + 1
  let month := if monthFromMarch < 10 then monthFromMarch + 3 else monthFromMarch - 9
  let year := year + 400 * period
  ⟨if month ≤ 2 then year + 1 else year, month, dayOfMonth⟩

/-- Whether a year has a leap day. -/
def isLeapYear (year : Nat) : Bool := year % 4 = 0 && (year % 100 ≠ 0 || year % 400 = 0)

/-- The number of days of a month. -/
def daysOfMonth (year month : Nat) : Nat :=
  if month = 2 then (if isLeapYear year then 29 else 28)
  else if month = 4 ∨ month = 6 ∨ month = 9 ∨ month = 11 then 30
  else 31

/-- A number with zeros before it, so that it has at least `width` digits. -/
def padded (width n : Nat) : String :=
  let ds := toString n
  "".pushn '0' (width - ds.length) ++ ds

/-- A year: four digits, with a sign before them if the year is negative or needs more digits. -/
def writeYear (year : Int) : String :=
  if year < 0 then "-" ++ padded 4 year.natAbs
  else if 9999 < year then "+" ++ padded 4 year.natAbs
  else padded 4 year.natAbs

end Calendar

namespace Moment

/-- The moment in seconds, such as `2026-02-02T00:00:00Z`. -/
def write (m : Moment) : String :=
  let seconds := m.milliseconds.fdiv 1000
  let date := Calendar.dateOfDay (seconds.fdiv 86400)
  let second := (seconds.fmod 86400).toNat
  Calendar.writeYear date.year ++ "-" ++ Calendar.padded 2 date.month ++ "-" ++
    Calendar.padded 2 date.day ++ "T" ++ Calendar.padded 2 (second / 3600) ++ ":" ++
    Calendar.padded 2 (second / 60 % 60) ++ ":" ++ Calendar.padded 2 (second % 60) ++ "Z"

/-- The milliseconds from one moment to another, none if the other is earlier. -/
def elapsed (m later : Moment) : Nat := (later.milliseconds - m.milliseconds).toNat

end Moment

end TestImpact
