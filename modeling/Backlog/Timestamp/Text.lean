import Backlog.Timestamp

/-!
# Written timestamps

A moment in the form of RFC 3339: date, `T`, time and zone.  The fraction of a second has 0, 3, 6 or 9 digits, the
fewest of these that say it exactly; a leap second is second 60; a year has at least four digits and a sign unless it
lies between 0 and 9999.
-/

namespace Backlog.Timestamp

/-- A number with at least the given count of digits. -/
def padded (width n : Nat) : List Char :=
  let digits := Nat.toDigits 10 n
  List.replicate (width - digits.length) '0' ++ digits

/-- A year as a date shows it. -/
def yearText (year : Int) : List Char :=
  if 0 ≤ year ∧ year ≤ 9999 then padded 4 year.toNat
  else if 0 ≤ year then '+' :: padded 4 year.toNat
  else '-' :: padded 4 (-year).toNat

/-- A day as year, month and day. -/
def dateText (d : Date) : List Char := yearText d.year ++ '-' :: padded 2 d.month ++ '-' :: padded 2 d.day

/-- The fraction of a second. -/
def fractionText (nanos : Nat) : List Char :=
  if nanos = 0 then []
  else if nanos % 1000000 = 0 then '.' :: padded 3 (nanos / 1000000)
  else if nanos % 1000 = 0 then '.' :: padded 6 (nanos / 1000)
  else '.' :: padded 9 nanos

/-- The time of day. -/
def timeText (t : Timestamp) : List Char :=
  let s := t.secondOfDay
  let second := if t.isLeap then s % 60 + 1 else s % 60
  padded 2 (s / 3600) ++ ':' :: padded 2 (s / 60 % 60) ++ ':' :: padded 2 second
    ++ fractionText (t.nano % 1000000000)

/-- A moment without its zone. -/
def localText (t : Timestamp) : List Char := dateText t.date ++ 'T' :: timeText t

/-- A moment as messages show it, with the zone `Z`. -/
def text (t : Timestamp) : String := String.ofList (localText t ++ ['Z'])

/-- A moment as stored rows keep it, with the zone as an offset. -/
def storedText (t : Timestamp) : String := String.ofList (localText t ++ "+00:00".toList)

end Backlog.Timestamp
