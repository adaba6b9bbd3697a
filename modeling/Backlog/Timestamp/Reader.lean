import Backlog.Timestamp
import Backlog.Text.Scan

/-!
# Reading timestamps

Three forms of a written moment are read.

* `Timestamp.ofRelaxed?` reads the form of documents: the separators may stand among blanks, the numbers may lack
  leading zeros, and the zone is required.
* `Timestamp.ofStrict?` reads RFC 3339 with all its digits and nothing else.
* `Timestamp.ofZoneless?` reads a date and a time in UTC, as databases write them.

`Timestamp.ofStored` is what a stored text stands for: the strict form, else the form without a zone, else the
earliest moment there is.
-/

namespace Backlog

/-- A date and a time of day as they are written, before anything is known of their ranges. -/
structure CivilTime where
  date : Date
  hour : Nat
  minute : Nat
  second : Nat
  nano : Nat
deriving DecidableEq, Repr, Inhabited

namespace CivilTime

/-- The moment that a date and a time stand for in a zone that is so many seconds ahead of UTC.  Second 60 is the leap
second after second 59; the calendar must have the day both in the zone and in UTC. -/
def toTimestamp? (c : CivilTime) (ahead : Int) : Option Timestamp :=
  if c.date.isValid ∧ c.hour < 24 ∧ c.minute < 60 ∧ c.second ≤ 60 ∧ ahead.natAbs < 86400 then
    let whole := min c.second 59
    let nano := if c.second = 60 then c.nano + 1000000000 else c.nano
    let local_ := c.date.dayNumber * 86400 + (c.hour * 3600 + c.minute * 60 + whole : Nat)
    if Timestamp.firstSecond ≤ local_ ∧ local_ ≤ Timestamp.lastSecond then Timestamp.ofUnix? (local_ - ahead) nano
    else none
  else none

end CivilTime

namespace Timestamp

open Text

/-- Reads a year: four digits at most, or a sign and any number of them. -/
def yearScan : Scan Int := do
  Scan.blanks
  Scan.orElse (do Scan.char '-'; return -(Int.ofNat (← Scan.anyNumber)))
    (Scan.orElse (do Scan.char '+'; return Int.ofNat (← Scan.anyNumber)) (return Int.ofNat (← Scan.number 1 4)))

/-- Reads a number of one or two digits after blanks. -/
def looseNumber : Scan Nat := do
  Scan.blanks
  Scan.number 1 2

/-- Reads the digits of a fraction as nanoseconds: the first nine count, and the others are dropped. -/
def fractionScan : Scan Nat := do
  let ds ← Scan.digits 1 9
  Scan.skipWhile Char.isDigit
  return digitsValue ds * Nat.pow 10 (9 - ds.length)

/-- Reads a point and a fraction, if a point stands here. -/
def fraction? : Scan Nat := fun s =>
  match s with
  | '.' :: r => fractionScan r
  | _ => some (0, s)

/-- Reads the sign of an offset; the sign for minus may be the mathematical one. -/
def signScan : Scan Int := do
  let c ← Scan.charWhere fun c => c == '+' || c == '-' || c == '\u2212'
  return if c = '+' then 1 else -1

/-- Reads an offset of hours and minutes from UTC, in seconds, with the given separator between the two. -/
def offsetScan (separator : Scan Unit) : Scan Int := do
  let sign ← signScan
  let hours ← Scan.number 2 2
  separator
  let minutes ← Scan.number 2 2
  if minutes < 60 then return sign * (hours * 3600 + minutes * 60 : Nat) else failure

/-- Reads `Z` in either case. -/
def zuluScan : Scan Int := do
  let _ ← Scan.charWhere fun c => c == 'Z' || c == 'z'
  return 0

/-- Reads `UTC` in either case. -/
def utcScan : Scan Int := do
  let _ ← Scan.charWhere fun c => c == 'U' || c == 'u'
  let _ ← Scan.charWhere fun c => c == 'T' || c == 't'
  let _ ← Scan.charWhere fun c => c == 'C' || c == 'c'
  return 0

/-! ### The relaxed form -/

/-- Reads a year, a month and a day with blanks allowed around the separators. -/
def relaxedDate : Scan Date := do
  let year ← yearScan
  Scan.blanks
  Scan.char '-'
  let month ← looseNumber
  Scan.blanks
  Scan.char '-'
  let day ← looseNumber
  return ⟨year, month, day⟩

/-- Reads a date and a time with blanks allowed around the separators. -/
def relaxedCivil : Scan CivilTime := do
  let date ← relaxedDate
  let _ ← Scan.charWhere fun c => c == 'T' || c == 't' || isBlank c
  let hour ← looseNumber
  Scan.blanks
  Scan.char ':'
  let minute ← looseNumber
  Scan.blanks
  Scan.char ':'
  let second ← looseNumber
  let nano ← fraction?
  return ⟨date, hour, minute, second, nano⟩

/-- Reads a zone among blanks; colons and blanks may stand between the hours and the minutes of an offset. -/
def relaxedZone : Scan Int := do
  Scan.blanks
  let ahead ← Scan.orElse utcScan
    (Scan.orElse zuluScan (offsetScan (Scan.skipWhile fun c => c == ':' || isBlank c)))
  Scan.blanks
  return ahead

/-- The moment that a text writes in the relaxed form. -/
def ofRelaxed? (s : String) : Option Timestamp := do
  let (c, ahead) ← Scan.run? (return (← relaxedCivil, ← relaxedZone)) s.toList
  c.toTimestamp? ahead

/-! ### The strict form -/

/-- Reads a date and a time with all their digits. -/
def strictCivil : Scan CivilTime := do
  let year ← Scan.number 4 4
  Scan.char '-'
  let month ← Scan.number 2 2
  Scan.char '-'
  let day ← Scan.number 2 2
  let _ ← Scan.charWhere fun c => c == 'T' || c == 't' || c == ' '
  let hour ← Scan.number 2 2
  Scan.char ':'
  let minute ← Scan.number 2 2
  Scan.char ':'
  let second ← Scan.number 2 2
  let nano ← fraction?
  return ⟨⟨year, month, day⟩, hour, minute, second, nano⟩

/-- Reads a zone: `Z`, or an offset with a colon in it. -/
def strictZone : Scan Int := Scan.orElse zuluScan (offsetScan (Scan.char ':'))

/-- The moment that a text writes in the strict form. -/
def ofStrict? (s : String) : Option Timestamp := do
  let (c, ahead) ← Scan.run? (return (← strictCivil, ← strictZone)) s.toList
  c.toTimestamp? ahead

/-! ### The form without a zone -/

/-- Reads a date and a time whose numbers may lack leading zeros and may follow blanks. -/
def zonelessCivil : Scan CivilTime := do
  let year ← yearScan
  Scan.char '-'
  let month ← looseNumber
  Scan.char '-'
  let day ← looseNumber
  let hour ← looseNumber
  Scan.char ':'
  let minute ← looseNumber
  Scan.char ':'
  let second ← looseNumber
  let nano ← fraction?
  return ⟨⟨year, month, day⟩, hour, minute, second, nano⟩

/-- The moment in UTC that a text writes without a zone. -/
def ofZoneless? (s : String) : Option Timestamp := do
  let c ← Scan.run? zonelessCivil s.toList
  c.toTimestamp? 0

/-- The moment that a stored text stands for. -/
def ofStored (s : String) : Timestamp := ((ofStrict? s).or (ofZoneless? s)).getD earliest

end Timestamp

end Backlog
