import Backlog.Proofs.Timestamp.Calendar
import Backlog.Timestamp.Reader
import Backlog.Timestamp.Text

/-!
# Stored moments are read back

A moment of the years 0 to 9999 is stored as a text with all its digits, and the strict reader finds the same moment in
it.

Key facts: a number that is written with a fixed count of digits is read as that number (`Scan.number_padded`), a
fraction as the nanoseconds that it says (`fraction?_fractionText`), a date and a time of day as they were
(`strictCivil_localText`), and a whole moment as it was (`ofStored_storedText`).
-/

namespace Backlog

open Text

/-! ### Written numbers -/

namespace Timestamp

theorem length_padded {width n : Nat} (hwidth : 0 < width) (hn : n < 10 ^ width) : (padded width n).length = width := by
  have hdigits : (Nat.toDigits 10 n).length ≤ width := (Nat.length_toDigits_le_iff (by decide) hwidth).2 hn
  unfold padded
  rw [List.length_append, List.length_replicate]
  omega

theorem isDigit_of_mem_padded {width n : Nat} {c : Char} (h : c ∈ padded width n) : c.isDigit = true := by
  unfold padded at h
  rcases List.mem_append.1 h with h | h
  · rw [List.eq_of_mem_replicate h]
    decide
  · exact Nat.isDigit_of_mem_toDigits (by decide) (by decide) h

theorem digitsValue_padded (width n : Nat) : digitsValue (padded width n) = n := by
  have hzeros (k : Nat) : (List.replicate k '0').foldl (fun n c => 10 * n + (c.toNat - 48)) 0 = 0 := by
    induction k with
    | zero => rfl
    | succ k ih =>
      rw [List.replicate_succ, List.foldl_cons]
      exact ih
  unfold digitsValue padded
  rw [List.foldl_append, hzeros]
  exact Nat.ofDigitChars_ten_toDigits

end Timestamp

/-! ### Scans that find what was written -/

namespace Text.Scan

variable {α β : Type} {s r ds : List Char}

/-- A scan that goes on after another one has found something. -/
theorem bind_of_eq {x : Scan α} {f : α → Scan β} {a : α} (h : x s = some (a, r)) : (x >>= f) s = f a r := by
  show (x s).bind (fun p => f p.1 p.2) = f a r
  rw [h]
  rfl

theorem char_cons (c : Char) (r : List Char) : char c (c :: r) = some ((), r) := if_pos rfl

theorem charWhere_cons {p : Char → Bool} {c : Char} (h : p c = true) (r : List Char) :
    charWhere p (c :: r) = some (c, r) := if_pos h

theorem digits_append {least most : Nat} (hds : ∀ c ∈ ds, c.isDigit = true) (hleast : least ≤ ds.length)
    (hmost : ds.length ≤ most) (hr : ds.length = most ∨ ∀ c ∈ r.head?, c.isDigit = false) :
    digits least most (ds ++ r) = some (ds, r) := by
  have hstop : (r.take (most - ds.length)).takeWhile Char.isDigit = [] := by
    rcases hr with hfull | hhead
    · rw [hfull, Nat.sub_self]
      rfl
    · cases r with
      | nil => simp
      | cons c r =>
        have hc : c.isDigit = false := hhead c rfl
        cases most - ds.length with
        | zero => rfl
        | succ k => simp [List.take_succ_cons, hc]
  have htaken : ((ds ++ r).take most).takeWhile Char.isDigit = ds := by
    rw [List.take_append, List.take_of_length_le hmost, List.takeWhile_append_of_pos hds, hstop, List.append_nil]
  unfold digits
  dsimp only
  rw [htaken, if_neg (by omega), List.drop_left]

theorem number_padded {least width n : Nat} (hleast : least ≤ width) (hwidth : 0 < width) (hn : n < 10 ^ width)
    (r : List Char) : number least width (Timestamp.padded width n ++ r) = some (n, r) := by
  have hlength := Timestamp.length_padded hwidth hn
  have hdigits : digits least width (Timestamp.padded width n ++ r) = some (Timestamp.padded width n, r) :=
    digits_append (fun c hc => Timestamp.isDigit_of_mem_padded hc) (hleast.trans (Nat.le_of_eq hlength.symm))
      (Nat.le_of_eq hlength) (.inl hlength)
  unfold number
  rw [bind_of_eq hdigits, Timestamp.digitsValue_padded]
  rfl

end Text.Scan

namespace Timestamp

/-! ### The parts of a moment -/

private theorem fractionScan_padded (places nanos : Nat) {unit : Nat} (hplaces : 0 < places) (hmost : places ≤ 9)
    (hunit : 10 ^ (9 - places) = unit) (hle : nanos / unit < 10 ^ places) (hmod : nanos % unit = 0) {r : List Char}
    (hr : ∀ c ∈ r.head?, c.isDigit = false) : fractionScan (padded places (nanos / unit) ++ r) = some (nanos, r) := by
  have hlength := length_padded hplaces hle
  have hdigits : Scan.digits 1 9 (padded places (nanos / unit) ++ r) = some (padded places (nanos / unit), r) :=
    Scan.digits_append (fun c hc => isDigit_of_mem_padded hc) (by omega) (by omega) (.inr hr)
  have hskip : Scan.skipWhile Char.isDigit r = some ((), r) := by
    cases r with
    | nil => rfl
    | cons c r => simp [Scan.skipWhile, hr c rfl]
  have hvalue : nanos / unit * unit = nanos := Nat.div_mul_cancel (Nat.dvd_of_mod_eq_zero hmod)
  unfold fractionScan
  rw [Scan.bind_of_eq hdigits, Scan.bind_of_eq hskip, digitsValue_padded, hlength]
  show some (nanos / unit * 10 ^ (9 - places), r) = some (nanos, r)
  rw [hunit, hvalue]

/-- A fraction is read as the nanoseconds that it says, whichever of its forms was chosen. -/
theorem fraction?_fractionText {nanos : Nat} (h : nanos < 1000000000) {r : List Char}
    (hr : ∀ c ∈ r.head?, c.isDigit = false ∧ c ≠ '.') :
    fraction? (fractionText nanos ++ r) = some (nanos, r) := by
  have hdigit (c : Char) (hc : c ∈ r.head?) : c.isDigit = false := (hr c hc).1
  unfold fractionText
  split
  · rename_i hzero
    subst hzero
    cases r with
    | nil => rfl
    | cons c r =>
      have hpoint : c ≠ '.' := (hr c rfl).2
      unfold fraction?
      split
      · rename_i heq
        cases heq
        exact absurd rfl hpoint
      · rfl
  split
  · exact fractionScan_padded 3 nanos (by decide) (by decide) rfl (by omega) (by assumption) hdigit
  split
  · exact fractionScan_padded 6 nanos (by decide) (by decide) rfl (by omega) (by assumption) hdigit
  · have hwhole := fractionScan_padded 9 nanos (by decide) (by decide) rfl (by omega)
      (Nat.mod_one nanos) hdigit
    rwa [Nat.pow_zero, Nat.div_one] at hwhole

/-- The date and the time of day that a moment is written with. -/
def civil (t : Timestamp) : CivilTime where
  date := t.date
  hour := t.secondOfDay / 3600
  minute := t.secondOfDay / 60 % 60
  second := if t.isLeap then t.secondOfDay % 60 + 1 else t.secondOfDay % 60
  nano := t.nano % 1000000000

/-- Whether a moment lies in the years that are written with four digits and no sign. -/
def HasPlainYear (t : Timestamp) : Prop := 0 ≤ t.date.year ∧ t.date.year ≤ 9999

instance (t : Timestamp) : Decidable t.HasPlainYear := inferInstanceAs (Decidable (_ ∧ _))

theorem bounds_date (t : Timestamp) : t.date.month ≤ 12 ∧ t.date.day ≤ 31 := by
  have hvalid : t.date.isValid = true := Date.isValid_ofDayNumber _
  unfold Date.isValid Date.monthLength at hvalid
  simp only [Bool.and_eq_true, decide_eq_true_eq] at hvalid
  split at hvalid
  all_goals first
    | omega
    | (split at hvalid <;> omega)

/-- The time of day as it is written, without its fraction. -/
def clockText (t : Timestamp) : List Char :=
  padded 2 (t.secondOfDay / 3600) ++ ':' :: padded 2 (t.secondOfDay / 60 % 60) ++
    ':' :: padded 2 (if t.isLeap then t.secondOfDay % 60 + 1 else t.secondOfDay % 60)

theorem secondOfDay_lt (t : Timestamp) : t.secondOfDay < 86400 := by
  unfold secondOfDay
  omega

/-- A date and a time of day are read as they were written, with either separator and any fraction that is read as
that of the moment. -/
theorem strictCivil_written {t : Timestamp} (h : t.HasPlainYear) {separator : Char}
    (hseparator : separator = 'T' ∨ separator = ' ') {fraction r : List Char}
    (hfraction : fraction? (fraction ++ r) = some (t.nano % 1000000000, r)) :
    strictCivil (dateText t.date ++ separator :: (clockText t ++ fraction) ++ r) = some (t.civil, r) := by
  obtain ⟨hpos, hle⟩ := h
  obtain ⟨hmonth, hday⟩ := t.bounds_date
  have hsecondOfDay := t.secondOfDay_lt
  have hyear : ((t.date.year.toNat : Nat) : Int) = t.date.year := Int.toNat_of_nonneg hpos
  have hyearText : yearText t.date.year = padded 4 t.date.year.toNat := if_pos ⟨hpos, hle⟩
  have hseparates : (separator == 'T' || separator == 't' || separator == ' ') = true := by
    rcases hseparator with rfl | rfl <;> rfl
  unfold dateText clockText
  rw [hyearText]
  simp only [List.append_assoc, List.cons_append]
  unfold strictCivil
  rw [Scan.bind_of_eq (Scan.number_padded Nat.le.refl (by decide) (by omega) _), Scan.bind_of_eq (Scan.char_cons _ _),
    Scan.bind_of_eq (Scan.number_padded Nat.le.refl (by decide) (by omega) _), Scan.bind_of_eq (Scan.char_cons _ _),
    Scan.bind_of_eq (Scan.number_padded Nat.le.refl (by decide) (by omega) _),
    Scan.bind_of_eq (Scan.charWhere_cons hseparates _),
    Scan.bind_of_eq (Scan.number_padded Nat.le.refl (by decide) (by omega) _), Scan.bind_of_eq (Scan.char_cons _ _),
    Scan.bind_of_eq (Scan.number_padded Nat.le.refl (by decide) (by omega) _), Scan.bind_of_eq (Scan.char_cons _ _),
    Scan.bind_of_eq (Scan.number_padded Nat.le.refl (by decide) (by split <;> omega) _),
    Scan.bind_of_eq hfraction]
  unfold civil
  rw [hyear]
  rfl

theorem strictCivil_localText {t : Timestamp} (h : t.HasPlainYear) {r : List Char}
    (hr : ∀ c ∈ r.head?, c.isDigit = false ∧ c ≠ '.') : strictCivil (localText t ++ r) = some (t.civil, r) :=
  strictCivil_written h (.inl rfl) (fraction?_fractionText (by omega) hr)

/-! ### Whole moments -/

private theorem nul_notMem_padded (width n : Nat) : '\x00' ∉ padded width n :=
  fun h => absurd (isDigit_of_mem_padded h) (by decide)

private theorem nul_notMem_yearText (year : Int) : '\x00' ∉ yearText year := by
  unfold yearText
  split
  · exact nul_notMem_padded _ _
  split <;> simp [nul_notMem_padded]

private theorem nul_notMem_fractionText (nanos : Nat) : '\x00' ∉ fractionText nanos := by
  unfold fractionText
  split
  · exact List.not_mem_nil
  split
  · simp [nul_notMem_padded]
  split <;> simp [nul_notMem_padded]

/-- No moment is written with the character at which texts end. -/
theorem nul_notMem_storedText (t : Timestamp) : '\x00' ∉ t.storedText.toList := by
  unfold storedText localText dateText timeText
  rw [String.toList_ofList]
  simp [nul_notMem_padded, nul_notMem_yearText, nul_notMem_fractionText]

/-- A date and a time of day that are read in UTC stand for the moment from which they were written. -/
theorem toTimestamp?_civil (t : Timestamp) : t.civil.toTimestamp? 0 = some t := by
  have hday : t.date.dayNumber = t.second / 86400 := Date.dayNumber_ofDayNumber _
  have hvalid : t.date.isValid = true := Date.isValid_ofDayNumber _
  have hsecond : ((t.secondOfDay : Nat) : Int) = t.second % 86400 := by
    unfold secondOfDay
    omega
  have hnano : t.nano < if t.second % 60 = 59 then 2000000000 else 1000000000 := t.nano_lt
  have hcivil : t.civil.second = 60 ∧ t.secondOfDay % 60 = 59 ∧ t.nano % 1000000000 + 1000000000 = t.nano ∨
      t.civil.second = t.secondOfDay % 60 ∧ t.nano % 1000000000 = t.nano := by
    show (if t.isLeap then _ else _) = 60 ∧ _ ∨ (if t.isLeap then _ else _) = _ ∧ _
    unfold isLeap
    simp only [decide_eq_true_eq]
    split at hnano <;> split <;> omega
  have hlocal : t.civil.date.dayNumber * 86400
      + (t.civil.hour * 3600 + t.civil.minute * 60 + min t.civil.second 59 : Nat) = t.second := by
    show t.date.dayNumber * 86400 + (t.secondOfDay / 3600 * 3600 + t.secondOfDay / 60 % 60 * 60 + _ : Nat) = _
    rw [hday]
    omega
  have hnanos : (if t.civil.second = 60 then t.civil.nano + 1000000000 else t.civil.nano) = t.nano := by
    have hparts : t.civil.nano = t.nano % 1000000000 := rfl
    rw [hparts]
    split <;> omega
  have hin : t.civil.date.isValid = true ∧ t.civil.hour < 24 ∧ t.civil.minute < 60 ∧ t.civil.second ≤ 60 ∧
      Int.natAbs 0 < 86400 := by
    refine ⟨hvalid, ?_, ?_, ?_, by decide⟩
    · show t.secondOfDay / 3600 < 24
      omega
    · show t.secondOfDay / 60 % 60 < 60
      omega
    · omega
  unfold CivilTime.toTimestamp?
  rw [if_pos hin]
  dsimp only
  rw [hlocal, if_pos ⟨t.first_le, t.le_last⟩, hnanos, Int.sub_zero, ofUnix?_self]

theorem ofStrict?_storedText {t : Timestamp} (h : t.HasPlainYear) : ofStrict? t.storedText = some t := by
  have hhead : ∀ c ∈ "+00:00".toList.head?, c.isDigit = false ∧ c ≠ '.' := by
    intro c hc
    obtain rfl : '+' = c := Option.mem_some.1 hc
    decide
  have hcivil : strictCivil (localText t ++ "+00:00".toList) = some (t.civil, "+00:00".toList) :=
    strictCivil_localText h hhead
  have hzone : strictZone "+00:00".toList = some (0, []) := by rfl
  unfold ofStrict? storedText Scan.run?
  rw [String.toList_ofList, Scan.bind_of_eq ((Scan.bind_of_eq hcivil).trans (Scan.bind_of_eq hzone))]
  exact toTimestamp?_civil t

/-- A moment of the years 0 to 9999 is read back from the text with which it is stored. -/
theorem ofStored_storedText {t : Timestamp} (h : t.HasPlainYear) : ofStored t.storedText = t := by
  unfold ofStored
  rw [ofStrict?_storedText h]
  rfl

end Timestamp

end Backlog
