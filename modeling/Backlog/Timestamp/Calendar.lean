/-!
# The calendar

Days of the Gregorian calendar, carried on without end in both directions, and their numbers counted from
1970-01-01.  The count starts a year in March, so that the leap day is the last day of its year: a cycle of 400 years
is then four centuries, a century 25 spans of four years, and a span four years, and only the last part of each is
longer or shorter than the others.

Key facts: `Date.ofDayNumber` undoes `Date.dayNumber` by splitting a number into these parts, largest first.
-/

namespace Backlog

/-- A year, a month from 1 to 12 and a day of the month. -/
structure Date where
  year : Int
  month : Nat
  day : Nat
deriving DecidableEq, Repr, Inhabited

namespace Date

/-- Whether a year has a 29th of February. -/
def isLeapYear (year : Int) : Bool := year % 4 = 0 && (year % 100 ≠ 0 || year % 400 = 0)

/-- The number of days of a month; there is none in a month that does not exist. -/
def monthLength (year : Int) : Nat → Nat
  | 1 | 3 | 5 | 7 | 8 | 10 | 12 => 31
  | 4 | 6 | 9 | 11 => 30
  | 2 => if isLeapYear year then 29 else 28
  | _ => 0

/-- Whether the calendar has this day. -/
def isValid (d : Date) : Bool := 1 ≤ d.day && d.day ≤ monthLength d.year d.month

/-- The days of a year that starts in March before the month with the given place in it. -/
def daysBeforeMonth (place : Nat) : Nat := (153 * place + 2) / 5

/-- The days from the first of March of the year 0 to the first of March of the given year. -/
def daysBeforeYear (year : Int) : Int := 365 * year + year / 4 - year / 100 + year / 400

/-- The days from 0000-03-01 to 1970-01-01. -/
def epoch : Int := 719468

/-- The days from 1970-01-01 to a day. -/
def dayNumber (d : Date) : Int :=
  let year := if d.month ≤ 2 then d.year - 1 else d.year
  daysBeforeYear year + (daysBeforeMonth ((d.month + 9) % 12) + d.day - 1 : Nat) - epoch

/-- The day that lies the given number of days after 1970-01-01. -/
def ofDayNumber (n : Int) : Date :=
  let z := n + epoch
  let inCycle := (z % 146097).toNat
  let century := min (inCycle / 36524) 3
  let inCentury := inCycle - 36524 * century
  let span := inCentury / 1461
  let inSpan := inCentury - 1461 * span
  let single := min (inSpan / 365) 3
  let inYear := inSpan - 365 * single
  let year := 400 * (z / 146097) + (100 * century + 4 * span + single : Nat)
  let place := (5 * inYear + 2) / 153
  let day := inYear - daysBeforeMonth place + 1
  if place < 10 then ⟨year, place + 3, day⟩ else ⟨year + 1, place - 9, day⟩

end Date

end Backlog
