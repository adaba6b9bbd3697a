import Backlog.Timestamp.Calendar
import Mathlib.Tactic.IntervalCases

/-!
# Days and their numbers

A number of a day is split into a cycle of 400 years, a century of the cycle, a span of four years of the century, a
year of the span and a day of the year.  The years here start in March.

Key facts: the parts stay within their bounds and make up the number again (`Date.exists_parts`), the day that
`Date.ofDayNumber` makes of them has that number (`Date.dayNumber_ofDayNumber`), and the calendar has it
(`Date.isValid_ofDayNumber`).
-/

namespace Backlog.Date

/-- The day of a number, made from the year that starts in March and the day of that year. -/
private def ofYearDay (year : Int) (inYear : Nat) : Date :=
  let place := (5 * inYear + 2) / 153
  let day := inYear - daysBeforeMonth place + 1
  if place < 10 then ⟨year, place + 3, day⟩ else ⟨year + 1, place - 9, day⟩

/-- The parts of a number of a day. -/
private structure Parts (z : Int) (cycle : Int) (century span single inYear : Nat) : Prop where
  century_le : century ≤ 3
  span_le : span ≤ 24
  single_le : single ≤ 3
  inYear_le : inYear ≤ 365
  /-- Only a year with a 29th of February at its end has 366 days. -/
  leap : inYear = 365 → single = 3 ∧ (span < 24 ∨ century = 3)
  sum : z = 146097 * cycle + (36524 * century + 1461 * span + 365 * single + inYear : Nat)

private theorem exists_parts (n : Int) : ∃ century span single inYear : Nat,
    Parts (n + epoch) ((n + epoch) / 146097) century span single inYear ∧
      ofDayNumber n =
        ofYearDay (400 * ((n + epoch) / 146097) + (100 * century + 4 * span + single : Nat)) inYear := by
  generalize hz : n + epoch = z
  have hcycle : ∃ inCycle : Nat, inCycle = (z % 146097).toNat ∧ inCycle ≤ 146096 ∧
      z = 146097 * (z / 146097) + inCycle := ⟨_, rfl, by omega, by omega⟩
  obtain ⟨inCycle, hinCycle, hinCycle_le, hsum⟩ := hcycle
  have hcentury : ∃ century inCentury : Nat, century = min (inCycle / 36524) 3 ∧
      inCentury = inCycle - 36524 * century ∧ century ≤ 3 ∧ inCycle = 36524 * century + inCentury ∧
      inCentury ≤ 36524 ∧ (inCentury = 36524 → century = 3) := ⟨_, _, rfl, rfl, by omega⟩
  obtain ⟨century, inCentury, hcentury, hinCentury, hcentury_le, hsumCycle, hinCentury_le, hlong⟩ := hcentury
  have hspan : ∃ span inSpan : Nat, span = inCentury / 1461 ∧ inSpan = inCentury - 1461 * span ∧ span ≤ 24 ∧
      inCentury = 1461 * span + inSpan ∧ inSpan ≤ 1460 ∧ (inSpan = 1460 → span < 24 ∨ century = 3) :=
    ⟨_, _, rfl, rfl, by omega⟩
  obtain ⟨span, inSpan, hspan, hinSpan, hspan_le, hsumCentury, hinSpan_le, hlongSpan⟩ := hspan
  have hsingle : ∃ single inYear : Nat, single = min (inSpan / 365) 3 ∧ inYear = inSpan - 365 * single ∧
      single ≤ 3 ∧ inSpan = 365 * single + inYear ∧ inYear ≤ 365 ∧ (inYear = 365 → single = 3 ∧ inSpan = 1460) :=
    ⟨_, _, rfl, rfl, by omega⟩
  obtain ⟨single, inYear, hsingle, hinYear, hsingle_le, hsumSpan, hinYear_le, hlongYear⟩ := hsingle
  refine ⟨century, span, single, inYear, ⟨hcentury_le, hspan_le, hsingle_le, hinYear_le, ?_, ?_⟩, ?_⟩
  · intro h
    exact ⟨(hlongYear h).1, hlongSpan (hlongYear h).2⟩
  · omega
  · unfold ofDayNumber
    dsimp only
    rw [hz, ← hinCycle, ← hcentury, ← hinCentury, ← hspan, ← hinSpan, ← hsingle, ← hinYear]
    rfl

/-- The first of March of a year, in the parts of its number. -/
private theorem daysBeforeYear_eq (cycle : Int) {century span single : Nat} (hcentury : century ≤ 3)
    (hspan : span ≤ 24) (hsingle : single ≤ 3) :
    daysBeforeYear (400 * cycle + (100 * century + 4 * span + single : Nat)) =
      146097 * cycle + (36524 * century + 1461 * span + 365 * single : Nat) := by
  unfold daysBeforeYear
  omega

private theorem dayNumber_ofYearDay (year : Int) {inYear : Nat} (h : inYear ≤ 365) :
    (ofYearDay year inYear).dayNumber = daysBeforeYear year + inYear - epoch := by
  unfold ofYearDay
  dsimp only
  generalize hplace : (5 * inYear + 2) / 153 = place
  have hle : place ≤ 11 := by omega
  have hbefore : daysBeforeMonth place ≤ inYear := by
    unfold daysBeforeMonth
    omega
  split
  · have hmonth : (place + 3 + 9) % 12 = place := by omega
    unfold dayNumber
    rw [if_neg (by dsimp only; omega)]
    dsimp only
    rw [hmonth]
    omega
  · -- January and February belong to the year that started before them
    have hmonth : (place - 9 + 9) % 12 = place := by omega
    unfold dayNumber
    rw [if_pos (by dsimp only; omega)]
    dsimp only
    rw [hmonth, Int.add_sub_cancel]
    omega

/-- The day with a number has that number. -/
theorem dayNumber_ofDayNumber (n : Int) : (ofDayNumber n).dayNumber = n := by
  obtain ⟨century, span, single, inYear, parts, hday⟩ := exists_parts n
  have hsum := parts.sum
  rw [hday, dayNumber_ofYearDay _ parts.inYear_le,
    daysBeforeYear_eq _ parts.century_le parts.span_le parts.single_le]
  omega

/-- From March to January a month is as long as the days before the next one say. -/
private theorem monthLength_eq (year : Int) {place : Nat} (h : place ≤ 10) :
    monthLength year ((place + 2) % 12 + 1) = daysBeforeMonth (place + 1) - daysBeforeMonth place := by
  interval_cases place <;> rfl

/-- No day of a year lies beyond the end of its month. -/
private theorem le_monthLength (year : Int) {inYear place : Nat} (hplace : (5 * inYear + 2) / 153 = place)
    (h : inYear ≤ 365) (leap : inYear = 365 → isLeapYear year = true) :
    inYear - daysBeforeMonth place + 1 ≤ monthLength year ((place + 2) % 12 + 1) := by
  have hbounds : daysBeforeMonth place ≤ inYear ∧ inYear < daysBeforeMonth (place + 1) := by
    unfold daysBeforeMonth
    omega
  rcases Nat.lt_or_ge 10 place with hlast | hle
  · -- the year ends with February, which has a 29th day in leap years
    obtain rfl : place = 11 := by omega
    show inYear - 337 + 1 ≤ if isLeapYear year then 29 else 28
    split
    · omega
    · rename_i hnot
      have hne : inYear ≠ 365 := fun he => hnot (leap he)
      omega
  · rw [monthLength_eq year hle]
    omega

private theorem isValid_ofYearDay (year : Int) {inYear : Nat} (h : inYear ≤ 365)
    (leap : inYear = 365 → isLeapYear (year + 1) = true) : (ofYearDay year inYear).isValid = true := by
  unfold ofYearDay
  dsimp only
  generalize hplace : (5 * inYear + 2) / 153 = place
  have hle : place ≤ 11 := by omega
  unfold isValid
  split
  · -- the last day of the year lies in February
    have hmonth : place + 3 = (place + 2) % 12 + 1 := by omega
    have hday := le_monthLength year hplace h fun he => by omega
    rw [← hmonth] at hday
    simp [hday]
  · have hmonth : place - 9 = (place + 2) % 12 + 1 := by omega
    have hday := le_monthLength (year + 1) hplace h leap
    rw [← hmonth] at hday
    simp [hday]

private theorem isLeapYear_of_parts (cycle : Int) {century span : Nat} (hspan : span < 24 ∨ century = 3)
    (hspan_le : span ≤ 24) : isLeapYear (400 * cycle + (100 * century + 4 * span + 3 : Nat) + 1) = true := by
  unfold isLeapYear
  simp only [Bool.and_eq_true, Bool.or_eq_true, decide_eq_true_eq]
  omega

/-- The day with a number is one of the calendar. -/
theorem isValid_ofDayNumber (n : Int) : (ofDayNumber n).isValid = true := by
  obtain ⟨century, span, single, inYear, parts, hday⟩ := exists_parts n
  rw [hday]
  refine isValid_ofYearDay _ parts.inYear_le fun hlast => ?_
  obtain ⟨rfl, hspan⟩ := parts.leap hlast
  exact isLeapYear_of_parts _ hspan parts.span_le

end Backlog.Date
