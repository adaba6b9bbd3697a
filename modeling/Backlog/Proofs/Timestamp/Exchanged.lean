import Backlog.Proofs.Timestamp.Stored

/-!
# Exchanged moments are read back

A moment of any year is written into documents with the zone `Z`, and the relaxed reader finds the same moment in it.
A year outside 0 to 9999 carries a sign, and behind a sign any number of digits is read.

Key facts: a scan that may pass over blanks passes over none where none was written (`Scan.blanks_of_head`), a year is
read with or without its sign (`yearScan_yearText`), a date and a time of day as they were
(`relaxedCivil_localText`), and a whole moment as it was (`ofRelaxed?_text`).
-/

namespace Backlog

open Text

namespace Text

theorem isBlank_of_isDigit {c : Char} (h : c.isDigit = true) : isBlank c = false := by
  unfold Char.isDigit at h
  simp only [ge_iff_le, Bool.and_eq_true, decide_eq_true_eq, UInt32.le_iff_toNat_le] at h
  have hlow : 48 ≤ c.toNat := h.1
  have hhigh : c.toNat ≤ 57 := h.2
  unfold isBlank
  simp only [Bool.or_eq_false_iff, Bool.and_eq_false_iff, decide_eq_false_iff_not, beq_eq_false_iff_ne]
  omega

namespace Scan

variable {α : Type} {s r : List Char}

/-- No blanks are passed over where none stand. -/
theorem blanks_of_head (h : ∀ c ∈ s.head?, isBlank c = false) : blanks s = some ((), s) := by
  cases s with
  | nil => rfl
  | cons c s =>
    have hc : isBlank c = false := h c rfl
    simp [blanks, skipWhile, hc]

theorem char_of_ne {c x : Char} (h : x ≠ c) (r : List Char) : char c (x :: r) = none := if_neg h

theorem orElse_left {a b : Scan α} {x : α} (h : a s = some (x, r)) : orElse a b s = some (x, r) := by
  unfold orElse
  rw [h]
  rfl

theorem orElse_right {a b : Scan α} (h : a s = none) : orElse a b s = b s := by
  unfold orElse
  rw [h]
  rfl

/-- A scan that goes on after one that has failed has failed too. -/
theorem bind_of_none {β : Type} {x : Scan α} {f : α → Scan β} (h : x s = none) : (x >>= f) s = none := by
  show (x s).bind (fun p => f p.1 p.2) = none
  rw [h]
  rfl

end Scan

end Text

namespace Timestamp

theorem exists_padded (width n : Nat) : ∃ c r, padded width n = c :: r ∧ c.isDigit = true := by
  cases h : padded width n with
  | nil =>
    unfold padded at h
    obtain ⟨-, hdigits⟩ := List.append_eq_nil_iff.1 h
    exact absurd hdigits (Nat.toDigits_ne_nil)
  | cons c r =>
    have hmem : c ∈ padded width n := h ▸ List.mem_cons_self
    exact ⟨c, r, rfl, isDigit_of_mem_padded hmem⟩

/-- No blank stands where a number begins. -/
theorem blanks_padded (width n : Nat) (r : List Char) :
    Scan.blanks (padded width n ++ r) = some ((), padded width n ++ r) := by
  obtain ⟨c, ds, hpadded, hdigit⟩ := exists_padded width n
  refine Scan.blanks_of_head fun x hx => ?_
  rw [hpadded, List.cons_append, List.head?_cons, Option.mem_some_iff] at hx
  exact hx ▸ isBlank_of_isDigit hdigit

/-- A number of any length is read up to a character that is no digit. -/
theorem anyNumber_padded (width n : Nat) {r : List Char} (hr : ∀ c ∈ r.head?, c.isDigit = false) :
    Scan.anyNumber (padded width n ++ r) = some (n, r) := by
  have hpositive : 1 ≤ (padded width n).length := by
    obtain ⟨c, ds, hpadded, -⟩ := exists_padded width n
    rw [hpadded, List.length_cons]
    omega
  have hle : (padded width n).length ≤ (padded width n ++ r).length := by
    rw [List.length_append]
    omega
  have hdigits : Scan.digits 1 (padded width n ++ r).length (padded width n ++ r) = some (padded width n, r) :=
    Scan.digits_append (fun c hc => isDigit_of_mem_padded hc) hpositive hle (.inr hr)
  unfold Scan.anyNumber Scan.number
  rw [Scan.bind_of_eq hdigits, digitsValue_padded]
  rfl

/-- A number of two digits is read by a scan that would also take one digit, and blanks before it. -/
theorem looseNumber_padded {n : Nat} (hn : n < 100) (r : List Char) :
    looseNumber (padded 2 n ++ r) = some (n, r) := by
  unfold looseNumber
  rw [Scan.bind_of_eq (blanks_padded 2 n r)]
  exact Scan.number_padded (by decide) (by decide) hn r

/-- No blanks are passed over where another character stands. -/
private theorem blanks_cons {c : Char} (h : isBlank c = false) (r : List Char) :
    Scan.blanks (c :: r) = some ((), c :: r) :=
  Scan.blanks_of_head fun x hx => by
    obtain rfl : c = x := Option.mem_some.1 hx
    exact h

/-- A year is read as it was written, with its sign or without one. -/
theorem yearScan_yearText (year : Int) {r : List Char} (hr : ∀ c ∈ r.head?, c.isDigit = false) :
    yearScan (yearText year ++ r) = some (year, r) := by
  unfold yearScan yearText
  split
  · -- without a sign there are four digits
    rename_i hplain
    obtain ⟨c, ds, hpadded, hdigit⟩ := exists_padded 4 year.toNat
    have hminus : c ≠ '-' := fun h => by rw [h] at hdigit; cases hdigit
    have hplus : c ≠ '+' := fun h => by rw [h] at hdigit; cases hdigit
    have hsign {x : Char} {f : Unit → Scan Int} (hx : c ≠ x) :
        (Scan.char x >>= f) (padded 4 year.toNat ++ r) = none := by
      rw [hpadded, List.cons_append]
      exact Scan.bind_of_none (Scan.char_of_ne hx _)
    rw [Scan.bind_of_eq (blanks_padded _ _ _), Scan.orElse_right (hsign hminus), Scan.orElse_right (hsign hplus),
      Scan.bind_of_eq (Scan.number_padded (by decide) (by decide) (by omega) r)]
    show some (Int.ofNat year.toNat, r) = some (year, r)
    rw [Int.ofNat_eq_natCast, Int.toNat_of_nonneg hplain.1]
  split
  · rename_i hpositive
    have hminus : '+' ≠ '-' := by decide
    rw [List.cons_append, Scan.bind_of_eq (blanks_cons rfl _),
      Scan.orElse_right (Scan.bind_of_none (Scan.char_of_ne hminus _))]
    refine Scan.orElse_left ?_
    rw [Scan.bind_of_eq (Scan.char_cons _ _), Scan.bind_of_eq (anyNumber_padded 4 _ hr)]
    show some (Int.ofNat year.toNat, r) = some (year, r)
    rw [Int.ofNat_eq_natCast, Int.toNat_of_nonneg hpositive]
  · rw [List.cons_append, Scan.bind_of_eq (blanks_cons rfl _)]
    refine Scan.orElse_left ?_
    rw [Scan.bind_of_eq (Scan.char_cons _ _), Scan.bind_of_eq (anyNumber_padded 4 _ hr)]
    show some (-Int.ofNat (-year).toNat, r) = some (year, r)
    rw [Int.ofNat_eq_natCast, Int.toNat_of_nonneg (by omega), Int.neg_neg]

theorem isDigit_head_minus {s : List Char} : ∀ c ∈ ('-' :: s).head?, c.isDigit = false := by
  intro c hc
  obtain rfl : '-' = c := Option.mem_some.1 hc
  rfl

theorem relaxedDate_dateText (t : Timestamp) (r : List Char) :
    relaxedDate (dateText t.date ++ r) = some (t.date, r) := by
  obtain ⟨hmonth, hday⟩ := t.bounds_date
  unfold relaxedDate dateText
  simp only [List.append_assoc, List.cons_append]
  rw [Scan.bind_of_eq (yearScan_yearText _ isDigit_head_minus), Scan.bind_of_eq (blanks_cons rfl _),
    Scan.bind_of_eq (Scan.char_cons _ _), Scan.bind_of_eq (looseNumber_padded (by omega) _),
    Scan.bind_of_eq (blanks_cons rfl _), Scan.bind_of_eq (Scan.char_cons _ _),
    Scan.bind_of_eq (looseNumber_padded (by omega) _)]
  rfl

theorem relaxedCivil_localText (t : Timestamp) {r : List Char} (hr : ∀ c ∈ r.head?, c.isDigit = false ∧ c ≠ '.') :
    relaxedCivil (localText t ++ r) = some (t.civil, r) := by
  have hsecondOfDay := t.secondOfDay_lt
  unfold relaxedCivil localText timeText
  simp only [List.append_assoc, List.cons_append]
  rw [Scan.bind_of_eq (relaxedDate_dateText t _), Scan.bind_of_eq (Scan.charWhere_cons rfl _),
    Scan.bind_of_eq (looseNumber_padded (by omega) _), Scan.bind_of_eq (blanks_cons rfl _),
    Scan.bind_of_eq (Scan.char_cons _ _), Scan.bind_of_eq (looseNumber_padded (by omega) _),
    Scan.bind_of_eq (blanks_cons rfl _), Scan.bind_of_eq (Scan.char_cons _ _),
    Scan.bind_of_eq (looseNumber_padded (by split <;> omega) _),
    Scan.bind_of_eq (fraction?_fractionText (by omega) hr)]
  rfl

/-- A moment is read back from the text with which documents show it. -/
theorem ofRelaxed?_text (t : Timestamp) : ofRelaxed? t.text = some t := by
  have hhead : ∀ c ∈ ['Z'].head?, c.isDigit = false ∧ c ≠ '.' := by
    intro c hc
    obtain rfl : 'Z' = c := Option.mem_some.1 hc
    decide
  have hcivil : relaxedCivil (localText t ++ ['Z']) = some (t.civil, ['Z']) := relaxedCivil_localText t hhead
  have hzone : relaxedZone ['Z'] = some (0, []) := by rfl
  unfold ofRelaxed? text Scan.run?
  rw [String.toList_ofList, Scan.bind_of_eq ((Scan.bind_of_eq hcivil).trans (Scan.bind_of_eq hzone))]
  exact toTimestamp?_civil t

end Timestamp

end Backlog
