import Backlog.Proofs.Timestamp.Exchanged
import Mathlib.Data.List.TakeWhile
import Mathlib.Tactic.Ring

/-!
# Moments without a zone

Databases write a moment without its zone: a date, a blank, a time of day, and perhaps a fraction with any number of
digits.  The strict reader finds no zone there, and the reader that needs none finds the moment.  A stored moment whose
year carries a sign is found by neither of the two.

Key facts: a fraction is read as the whole nanoseconds that it says, however many digits it has
(`fraction?_of_saysNanos`); a moment that a database has written is read back (`ofStored_databaseText`), and one whose year
lies outside 0 to 9999 is lost when it is stored (`ofStored_storedText_of_signed`).
-/

namespace Backlog

open Text

namespace Text

variable {ds : List Char}

theorem digitsValue_append (ds es : List Char) :
    digitsValue (ds ++ es) = digitsValue ds * 10 ^ es.length + digitsValue es := by
  have hfold (n : Nat) : es.foldl (fun n c => 10 * n + (c.toNat - 48)) n = n * 10 ^ es.length + digitsValue es := by
    unfold digitsValue
    induction es generalizing n with
    | nil => simp
    | cons c es ih =>
      rw [List.foldl_cons, List.foldl_cons, ih, ih (10 * 0 + (c.toNat - 48)), List.length_cons, Nat.pow_succ]
      ring
  unfold digitsValue
  rw [List.foldl_append]
  exact hfold _

theorem digitsValue_lt (hds : ∀ c ∈ ds, c.isDigit = true) : digitsValue ds < 10 ^ ds.length := by
  induction ds with
  | nil => decide
  | cons c ds ih =>
    have htail := ih fun d hd => hds d (List.mem_cons_of_mem _ hd)
    have hdigit : c.toNat - 48 ≤ 9 := by
      have hc := hds c List.mem_cons_self
      unfold Char.isDigit at hc
      simp only [ge_iff_le, Bool.and_eq_true, decide_eq_true_eq, UInt32.le_iff_toNat_le] at hc
      have hhigh : c.toNat ≤ 57 := hc.2
      omega
    have hhead : digitsValue [c] = c.toNat - 48 := by simp [digitsValue]
    have hvalue := digitsValue_append [c] ds
    rw [List.singleton_append, hhead] at hvalue
    rw [hvalue, List.length_cons, Nat.pow_succ]
    have hfirst := Nat.mul_le_mul_right (10 ^ ds.length) hdigit
    omega

end Text

namespace Timestamp

/-! ### Fractions of any length -/

/-- What may stand behind a second to say its nanoseconds: nothing if there are none, or a point and digits; what they
say beyond nanoseconds does not count. -/
inductive SaysNanos (nanos : Nat) : List Char → Prop
  | none (zero : nanos = 0) : SaysNanos nanos []
  | digits (ds : List Char) (nonempty : ds ≠ []) (isDigit : ∀ c ∈ ds, c.isDigit = true)
    (value : nanos = digitsValue ds * 1000000000 / 10 ^ ds.length) : SaysNanos nanos ('.' :: ds)

/-- The first nine digits of a fraction say its nanoseconds. -/
private theorem nanos_of_digits (ds : List Char) (hds : ∀ c ∈ ds, c.isDigit = true) :
    digitsValue (ds.take 9) * 10 ^ (9 - (ds.take 9).length) = digitsValue ds * 1000000000 / 10 ^ ds.length := by
  by_cases hlong : ds.length ≤ 9
  · rw [List.take_of_length_le hlong]
    have hunit : (1000000000 : Nat) = 10 ^ (9 - ds.length) * 10 ^ ds.length := by
      rw [← Nat.pow_add, Nat.sub_add_cancel hlong]
    rw [hunit, ← Nat.mul_assoc, Nat.mul_div_cancel _ (Nat.pow_pos (by decide))]
  · have hfirst : (ds.take 9).length = 9 := by
      rw [List.length_take]
      omega
    have hrest : digitsValue (ds.drop 9) < 10 ^ (ds.drop 9).length :=
      digitsValue_lt fun c hc => hds c (List.mem_of_mem_drop hc)
    have hvalue : digitsValue ds = digitsValue (ds.take 9) * 10 ^ (ds.drop 9).length + digitsValue (ds.drop 9) := by
      rw [← digitsValue_append, List.take_append_drop]
    have hlength : 10 ^ ds.length = 10 ^ (ds.drop 9).length * 1000000000 := by
      rw [List.length_drop, show (1000000000 : Nat) = 10 ^ 9 from rfl, ← Nat.pow_add]
      congr 1
      omega
    rw [hfirst, hlength, Nat.mul_div_mul_right _ _ (by decide), hvalue, Nat.add_comm,
      Nat.add_mul_div_right _ _ (Nat.pow_pos (by decide)), Nat.div_eq_of_lt hrest]
    simp

/-- A fraction is read as the nanoseconds that it says. -/
theorem fraction?_of_saysNanos {nanos : Nat} {fraction : List Char} (h : SaysNanos nanos fraction) :
    fraction? fraction = some (nanos, []) := by
  cases h with
  | none zero =>
    rw [zero]
    rfl
  | digits ds nonempty isDigit value =>
    have hall (es : List Char) (hes : ∀ c ∈ es, c ∈ ds) : ∀ c ∈ es, c.isDigit = true := fun c hc => isDigit c (hes c hc)
    have hdigits : Scan.digits 1 9 ds =
        some (ds.take 9, ds.drop (ds.take 9).length) := by
      have htaken : (ds.take 9).takeWhile Char.isDigit = ds.take 9 :=
        List.takeWhile_eq_self_iff.2 (hall _ fun c hc => List.mem_of_mem_take hc)
      have hsome : ¬ (ds.take 9).length < 1 := by
        have hpos := List.length_pos_iff.2 nonempty
        rw [List.length_take]
        omega
      unfold Scan.digits
      dsimp only
      rw [htaken, if_neg hsome]
    have hskip : Scan.skipWhile Char.isDigit (ds.drop (ds.take 9).length) = some ((), []) := by
      have hdropped : (ds.drop (ds.take 9).length).dropWhile Char.isDigit = [] :=
        List.dropWhile_eq_nil_iff.2 (hall _ fun c hc => List.mem_of_mem_drop hc)
      rw [Scan.skipWhile, hdropped]
    show fractionScan ds = _
    unfold fractionScan
    rw [Scan.bind_of_eq hdigits, Scan.bind_of_eq hskip, value, ← nanos_of_digits ds isDigit]
    rfl

/-! ### What databases write -/

/-- A moment as databases write it, with a fraction of its second. -/
def databaseText (t : Timestamp) (fraction : List Char) : String :=
  String.ofList (dateText t.date ++ ' ' :: (clockText t ++ fraction))

section

variable {t : Timestamp} {fraction : List Char}

/-- The reader that needs no zone reads the date and goes on to the time of day. -/
theorem zonelessCivil_dateText (t : Timestamp) (r : List Char) :
    zonelessCivil (dateText t.date ++ r) =
      (do
        let hour ← looseNumber
        Scan.char ':'
        let minute ← looseNumber
        Scan.char ':'
        let second ← looseNumber
        let nano ← fraction?
        return ⟨t.date, hour, minute, second, nano⟩ : Scan CivilTime) r := by
  obtain ⟨hmonth, hday⟩ := t.bounds_date
  unfold zonelessCivil dateText
  simp only [List.append_assoc, List.cons_append]
  rw [Scan.bind_of_eq (yearScan_yearText _ isDigit_head_minus), Scan.bind_of_eq (Scan.char_cons _ _),
    Scan.bind_of_eq (looseNumber_padded (by omega) _), Scan.bind_of_eq (Scan.char_cons _ _),
    Scan.bind_of_eq (looseNumber_padded (by omega) _)]

theorem zonelessCivil_databaseText (h : fraction? fraction = some (t.nano % 1000000000, [])) :
    zonelessCivil (dateText t.date ++ ' ' :: (clockText t ++ fraction)) = some (t.civil, []) := by
  have hsecondOfDay := t.secondOfDay_lt
  have hblank (s : List Char) : looseNumber (' ' :: (padded 2 (t.secondOfDay / 3600) ++ s)) =
      some (t.secondOfDay / 3600, s) := looseNumber_padded (by omega) s
  rw [zonelessCivil_dateText]
  unfold clockText
  simp only [List.append_assoc, List.cons_append]
  rw [Scan.bind_of_eq (hblank _), Scan.bind_of_eq (Scan.char_cons _ _),
    Scan.bind_of_eq (looseNumber_padded (by omega) _), Scan.bind_of_eq (Scan.char_cons _ _),
    Scan.bind_of_eq (looseNumber_padded (by split <;> omega) _), Scan.bind_of_eq h]
  rfl

/-- A moment that a database has written is found where no zone is needed. -/
theorem ofZoneless?_databaseText (h : SaysNanos (t.nano % 1000000000) fraction) :
    ofZoneless? (t.databaseText fraction) = some t := by
  unfold ofZoneless? databaseText Scan.run?
  rw [String.toList_ofList, Scan.bind_of_eq (zonelessCivil_databaseText (fraction?_of_saysNanos h))]
  exact toTimestamp?_civil t

/-- The strict reader misses the zone. -/
theorem ofStrict?_databaseText (plain : t.HasPlainYear) (h : SaysNanos (t.nano % 1000000000) fraction) :
    ofStrict? (t.databaseText fraction) = none := by
  have hcivil : strictCivil (dateText t.date ++ ' ' :: (clockText t ++ fraction)) = some (t.civil, []) := by
    have hread : fraction? (fraction ++ []) = some (t.nano % 1000000000, []) := by
      rw [List.append_nil]
      exact fraction?_of_saysNanos h
    have hwritten := strictCivil_written plain (.inr rfl) hread
    rwa [List.append_nil] at hwritten
  have hzone : strictZone [] = none := rfl
  unfold ofStrict? databaseText Scan.run?
  rw [String.toList_ofList, Scan.bind_of_none ((Scan.bind_of_eq hcivil).trans (Scan.bind_of_none hzone))]
  rfl

/-- A moment of the years 0 to 9999 is read back from what a database has written. -/
theorem ofStored_databaseText (plain : t.HasPlainYear) (h : SaysNanos (t.nano % 1000000000) fraction) :
    ofStored (t.databaseText fraction) = t := by
  unfold ofStored
  rw [ofStrict?_databaseText plain h, ofZoneless?_databaseText h]
  rfl

end

/-! ### Years with a sign -/

section

variable {t : Timestamp} (signed : ¬ t.HasPlainYear)

include signed

theorem exists_sign : ∃ sign digits, yearText t.date.year = sign :: digits ∧ (sign = '+' ∨ sign = '-') := by
  have hsigned : ¬ (0 ≤ t.date.year ∧ t.date.year ≤ 9999) := signed
  unfold yearText
  rw [if_neg hsigned]
  split
  · exact ⟨'+', _, rfl, .inl rfl⟩
  · exact ⟨'-', _, rfl, .inr rfl⟩

theorem ofStrict?_storedText_of_signed : ofStrict? t.storedText = none := by
  obtain ⟨sign, digits, hyear, hsign⟩ := exists_sign signed
  have hcivil (r : List Char) : strictCivil (sign :: r) = none := by
    have hdigits : Scan.digits 4 4 (sign :: r) = none := by
      rcases hsign with rfl | rfl <;> rfl
    exact Scan.bind_of_none (Scan.bind_of_none hdigits)
  unfold ofStrict? storedText localText dateText Scan.run?
  rw [String.toList_ofList, hyear]
  simp only [List.append_assoc, List.cons_append]
  rw [Scan.bind_of_none (Scan.bind_of_none (hcivil _))]
  rfl

end

/-- The reader that needs no zone stops at the letter between the date and the time. -/
theorem ofZoneless?_storedText (t : Timestamp) : ofZoneless? t.storedText = none := by
  have hletter (s : List Char) : looseNumber ('T' :: s) = none := by
    have hblanks : Scan.blanks ('T' :: s) = some ((), 'T' :: s) := by rfl
    have hdigits : Scan.digits 1 2 ('T' :: s) = none := by rfl
    unfold looseNumber
    rw [Scan.bind_of_eq hblanks]
    exact Scan.bind_of_none hdigits
  unfold ofZoneless? storedText localText Scan.run?
  rw [String.toList_ofList, List.append_assoc, List.cons_append,
    Scan.bind_of_none ((zonelessCivil_dateText t _).trans (Scan.bind_of_none (hletter _)))]
  rfl

/-- A moment of another year is lost when it is stored. -/
theorem ofStored_storedText_of_signed {t : Timestamp} (signed : ¬ t.HasPlainYear) : ofStored t.storedText = earliest := by
  unfold ofStored
  rw [ofStrict?_storedText_of_signed signed, ofZoneless?_storedText]
  rfl

end Timestamp

end Backlog
