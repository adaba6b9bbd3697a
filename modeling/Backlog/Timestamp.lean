import Backlog.Duration
import Backlog.Timestamp.Calendar

/-!
# Timestamps

Moments of the wall clock in UTC, to the nanosecond.  A leap second is a second number 60: it is kept as the second 59
before it with a thousand million nanoseconds or more.

Key facts: every timestamp lies between the first and the last second of the calendar that is kept
(`Timestamp.first_le`, `Timestamp.le_last`), and only a second 59 is long (`Timestamp.nano_lt`).
-/

namespace Backlog

namespace Timestamp

/-- The first second of the year -262143, counted from 1970. -/
def firstSecond : Int := -8334601228800

/-- The last second of the year 262142, counted from 1970. -/
def lastSecond : Int := 8210266876799

/-- The nanoseconds that a second may hold: twice as many in a second 59, for the leap second after it. -/
def nanoLimit (second : Int) : Nat := if second % 60 = 59 then 2000000000 else 1000000000

end Timestamp

/-- A moment of the wall clock: the seconds since 1970-01-01T00:00:00Z and the nanoseconds after them. -/
structure Timestamp where
  second : Int
  nano : Nat
  first_le : Timestamp.firstSecond ≤ second
  le_last : second ≤ Timestamp.lastSecond
  nano_lt : nano < Timestamp.nanoLimit second
deriving DecidableEq, Repr

namespace Timestamp

/-- The moment with these seconds and nanoseconds, if it can be kept. -/
def ofUnix? (second : Int) (nano : Nat) : Option Timestamp :=
  if h : firstSecond ≤ second ∧ second ≤ lastSecond ∧ nano < nanoLimit second then
    some ⟨second, nano, h.1, h.2.1, h.2.2⟩
  else none

@[simp] theorem ofUnix?_self (t : Timestamp) : ofUnix? t.second t.nano = some t := by
  simp [ofUnix?, t.first_le, t.le_last, t.nano_lt]

/-- The first moment that can be kept. -/
def earliest : Timestamp := ⟨firstSecond, 0, by decide, by decide, by decide⟩

instance : Inhabited Timestamp := ⟨earliest⟩

/-- Whether a moment lies in a leap second. -/
def isLeap (t : Timestamp) : Bool := 1000000000 ≤ t.nano

/-- The second of the day, from 0 to 86399. -/
def secondOfDay (t : Timestamp) : Nat := (t.second % 86400).toNat

/-- The day on which a moment falls. -/
def date (t : Timestamp) : Date := Date.ofDayNumber (t.second / 86400)

instance : LT Timestamp := ⟨fun a b => a.second < b.second ∨ a.second = b.second ∧ a.nano < b.nano⟩

instance (a b : Timestamp) : Decidable (a < b) :=
  inferInstanceAs (Decidable (a.second < b.second ∨ a.second = b.second ∧ a.nano < b.nano))

theorem lt_iff {a b : Timestamp} :
    a < b ↔ a.second < b.second ∨ a.second = b.second ∧ a.nano < b.nano := Iff.rfl

/-- The later of two moments. -/
def latest (a b : Timestamp) : Timestamp := if a < b then b else a

/-- The nanoseconds from one moment to a later one, negative if it is earlier.  A leap second between the two counts
where the times of day are in the order of the moments. -/
def nanosSince (t start : Timestamp) : Int :=
  let plain := (t.second - start.second) * 1000000000 + ((t.nano : Int) - start.nano)
  if start.secondOfDay < t.secondOfDay ∧ start.isLeap then plain + 1000000000
  else if t.secondOfDay < start.secondOfDay ∧ t.isLeap then plain - 1000000000
  else plain

/-- The span from one moment to a later one, empty if it is earlier. -/
def since (t start : Timestamp) : Duration := ⟨(nanosSince t start).toNat⟩

/-- The moment a microsecond later; the last moments of the calendar have no later one and stay. -/
def addMicro (t : Timestamp) : Timestamp :=
  if h : t.nano + 1000 < nanoLimit t.second ∧ (t.isLeap ∨ t.nano + 1000 < 1000000000) then
    ⟨t.second, t.nano + 1000, t.first_le, t.le_last, h.1⟩
  else (ofUnix? (t.second + 1) ((t.nano + 1000) % 1000000000)).getD t

/-- The moment that lies the given number of milliseconds earlier, later for a negative number. -/
def backMillis? (t : Timestamp) (ms : Int) : Option Timestamp :=
  let nanos := t.second * 1000000000 + t.nano - ms * 1000000
  ofUnix? (nanos / 1000000000) (nanos % 1000000000).toNat

end Timestamp

end Backlog
