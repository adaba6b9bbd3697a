import Backlog.Proofs.Timestamp.Zoneless
import Backlog.Text.Numeral

/-!
# What the words of settings say

A setting is written as one word with blanks around it.  A numeral is a word of decimal digits behind at most one plus
sign, a truth value is one of two words, and the readers of both accept these words and no others.

Key facts: a text has exactly one word between its blanks (`trim_eq_iff`); a numeral is read iff its value is within the
bound, however many zeros it starts with (`natural?_eq_ok_iff`, `writesNatural_padded`), and a word that is refused is
refused at the first character that no numeral can have there (`natural?_eq_error_iff`).
-/

namespace Backlog.Text

variable {text word : List Char} {most n : Nat}

/-! ### Blanks around a word -/

/-- A word is what is left of a text without the blanks around it. -/
structure Trims (text word : List Char) : Prop where
  around : ∃ before after, text = before ++ word ++ after ∧
    (∀ c ∈ before, isBlank c = true) ∧ ∀ c ∈ after, isBlank c = true
  starts : ∀ c ∈ word.head?, isBlank c = false
  ends : ∀ c ∈ word.getLast?, isBlank c = false

theorem dropBlanks_of_head (h : ∀ c ∈ word.head?, isBlank c = false) : dropBlanks word = word := by
  cases word with
  | nil => rfl
  | cons c word =>
    have hc : isBlank c = false := h c rfl
    exact List.dropWhile_cons_of_neg (by simp [hc])

theorem trim_of_ends (starts : ∀ c ∈ word.head?, isBlank c = false) (ends : ∀ c ∈ word.getLast?, isBlank c = false) :
    trim word = word := by
  have hreverse : dropBlanks word.reverse = word.reverse := by
    apply dropBlanks_of_head
    rwa [List.head?_reverse]
  unfold trim
  rw [dropBlanks_of_head starts, hreverse, List.reverse_reverse]

/-- Blanks stand in front of what is left without them. -/
private theorem exists_dropBlanks (s : List Char) :
    ∃ blanks, s = blanks ++ dropBlanks s ∧ (∀ c ∈ blanks, isBlank c = true) ∧
      ∀ c ∈ (dropBlanks s).head?, isBlank c = false := by
  refine ⟨s.takeWhile isBlank, (List.takeWhile_append_dropWhile ..).symm, fun c hc => ?_, fun c hc => ?_⟩
  · exact List.mem_takeWhile_imp hc
  · obtain ⟨r, hr⟩ := List.head?_eq_some_iff.1 hc
    exact dropBlanks_head hr

theorem trims_trim (text : List Char) : Trims text (trim text) := by
  obtain ⟨before, hbefore, hblank, hstarts⟩ := exists_dropBlanks text
  obtain ⟨behind, hbehind, hblank', hends⟩ := exists_dropBlanks (dropBlanks text).reverse
  have hword : dropBlanks text = trim text ++ behind.reverse := by
    unfold trim
    rw [← List.reverse_append, ← hbehind, List.reverse_reverse]
  refine ⟨⟨before, behind.reverse, ?_, hblank, fun c hc => hblank' c (List.mem_reverse.1 hc)⟩, fun c hc => ?_, ?_⟩
  · rw [List.append_assoc, ← hword]
    exact hbefore
  · apply hstarts
    rw [hword]
    obtain ⟨r, hr⟩ := List.head?_eq_some_iff.1 hc
    rw [hr]
    rfl
  · unfold trim
    rwa [List.getLast?_reverse]

/-- A text has exactly one word between its blanks. -/
theorem trim_eq_iff : trim text = word ↔ Trims text word := by
  constructor
  · rintro rfl
    exact trims_trim text
  · rintro ⟨⟨before, after, rfl, hbefore, hafter⟩, hstarts, hends⟩
    rw [trim_append_blanks hafter, trim_blanks_append hbefore]
    exact trim_of_ends hstarts hends

/-! ### Numerals -/

/-- A word without the plus sign that it may start with. -/
def unsigned : List Char → List Char
  | '+' :: digits => digits
  | word => word

/-- A word writes a number that is at most `most`: with one plus sign or none, and at least one decimal digit. -/
structure WritesNatural (most : Nat) (word : List Char) (n : Nat) : Prop where
  nonempty : unsigned word ≠ []
  isDigit : ∀ c ∈ unsigned word, c.isDigit = true
  value : digitsValue (unsigned word) = n
  bound : n ≤ most

/-- What stops the reading of digits behind those in `front`: a character that is no digit, or a digit that makes the
number too large. -/
inductive Stops (most : Nat) (front digits : List Char) : WordError → Prop
  | badDigit {more back : List Char} {c : Char} (split : digits = more ++ c :: back)
    (isDigit : ∀ d ∈ more, d.isDigit = true) (bound : digitsValue (front ++ more) ≤ most)
    (stray : c.isDigit = false) : Stops most front digits .badDigit
  | tooLarge {more back : List Char} (split : digits = more ++ back) (isDigit : ∀ d ∈ more, d.isDigit = true)
    (exceeds : most < digitsValue (front ++ more)) : Stops most front digits .tooLarge

/-- What is wrong with a word that should write a number: it is empty, it is a sign alone, or reading stops. -/
inductive RefusesNatural (most : Nat) (word : List Char) : WordError → Prop
  | empty (h : word = []) : RefusesNatural most word .empty
  | sign (h : word = ['+']) : RefusesNatural most word .badDigit
  | stops {e : WordError} (h : Stops most [] (unsigned word) e) : RefusesNatural most word e

theorem digitsValue_concat (front : List Char) (c : Char) :
    digitsValue (front ++ [c]) = 10 * digitsValue front + (c.toNat - 48) := by
  unfold digitsValue
  rw [List.foldl_append]
  rfl

theorem digitsValue_le_append (front back : List Char) : digitsValue front ≤ digitsValue (front ++ back) := by
  rw [digitsValue_append]
  exact Nat.le_add_right_of_le (Nat.le_mul_of_pos_right _ (Nat.pow_pos (by decide)))

section

variable {front digits back : List Char} {c : Char} {e : WordError}

/-- One digit is read, and the number does not become too large by it. -/
private theorem naturalFrom_cons (hc : c.isDigit = true) (hle : digitsValue (front ++ [c]) ≤ most) :
    naturalFrom most (digitsValue front) (c :: digits) = naturalFrom most (digitsValue (front ++ [c])) digits := by
  rw [digitsValue_concat] at hle
  rw [naturalFrom, if_pos hc, if_pos hle, digitsValue_concat]

private theorem naturalFrom_cons_of_lt (hc : c.isDigit = true) (hlt : most < digitsValue (front ++ [c])) :
    naturalFrom most (digitsValue front) (c :: digits) = .error .tooLarge := by
  rw [digitsValue_concat] at hlt
  rw [naturalFrom, if_pos hc, if_neg (by omega)]

private theorem naturalFrom_cons_of_stray (hc : c.isDigit = false) (n : Nat) :
    naturalFrom most n (c :: digits) = .error .badDigit := by
  rw [naturalFrom, if_neg (by simp [hc])]

/-- Digits are read to their end iff the value of all of them is within the bound. -/
theorem naturalFrom_eq_ok_iff (hfront : digitsValue front ≤ most) :
    naturalFrom most (digitsValue front) digits = .ok n ↔
      (∀ c ∈ digits, c.isDigit = true) ∧ digitsValue (front ++ digits) = n ∧ n ≤ most := by
  induction digits generalizing front with
  | nil =>
    rw [naturalFrom, List.append_nil]
    constructor
    · intro h
      cases h
      exact ⟨by simp, rfl, hfront⟩
    · rintro ⟨-, rfl, -⟩
      rfl
  | cons c digits ih =>
    have happend : front ++ c :: digits = front ++ [c] ++ digits := by simp
    by_cases hc : c.isDigit = true
    · by_cases hle : digitsValue (front ++ [c]) ≤ most
      · rw [naturalFrom_cons hc hle, ih hle, happend]
        simp [hc]
      · rw [naturalFrom_cons_of_lt hc (Nat.lt_of_not_le hle)]
        constructor
        · intro h
          cases h
        · rintro ⟨-, rfl, hbound⟩
          rw [happend] at hbound
          exact absurd ((digitsValue_le_append _ digits).trans hbound) hle
    · rw [naturalFrom_cons_of_stray (Bool.eq_false_iff.2 hc)]
      constructor
      · intro h
        cases h
      · rintro ⟨hall, -⟩
        exact absurd (hall c List.mem_cons_self) hc

/-- Nothing stops the reading where nothing is left. -/
private theorem not_stops_nil (hfront : digitsValue front ≤ most) : ¬ Stops most front [] e := by
  intro h
  cases h with
  | badDigit split => exact absurd split (by simp)
  | tooLarge split isDigit exceeds =>
    rw [(List.append_eq_nil_iff.1 split.symm).1, List.append_nil] at exceeds
    omega

/-- Behind a digit the reading stops where it stops behind that digit. -/
private theorem stops_cons_iff (hc : c.isDigit = true) (hfront : digitsValue front ≤ most) :
    Stops most front (c :: digits) e ↔ Stops most (front ++ [c]) digits e := by
  have happend (more : List Char) : front ++ c :: more = front ++ [c] ++ more := by simp
  constructor
  · rintro (@⟨more, back, d, split, isDigit, bound, stray⟩ | @⟨more, back, split, isDigit, exceeds⟩)
    · cases more with
      | nil =>
        cases split
        rw [hc] at stray
        cases stray
      | cons x more =>
        cases split
        rw [happend] at bound
        exact .badDigit rfl (fun d hd => isDigit d (List.mem_cons_of_mem _ hd)) bound stray
    · cases more with
      | nil =>
        rw [List.append_nil] at exceeds
        omega
      | cons x more =>
        cases split
        rw [happend] at exceeds
        exact .tooLarge rfl (fun d hd => isDigit d (List.mem_cons_of_mem _ hd)) exceeds
  · have hall {more : List Char} (isDigit : ∀ d ∈ more, d.isDigit = true) : ∀ d ∈ c :: more, d.isDigit = true := by
      simpa [hc] using isDigit
    rintro (@⟨more, back, d, rfl, isDigit, bound, stray⟩ | @⟨more, back, rfl, isDigit, exceeds⟩)
    · rw [← happend] at bound
      exact .badDigit rfl (hall isDigit) bound stray
    · rw [← happend] at exceeds
      exact .tooLarge rfl (hall isDigit) exceeds

/-- At a digit that makes the number too large nothing else stops the reading. -/
private theorem stops_iff_of_lt (hc : c.isDigit = true) (hfront : digitsValue front ≤ most)
    (hlt : most < digitsValue (front ++ [c])) : Stops most front (c :: digits) e ↔ e = .tooLarge := by
  rw [stops_cons_iff hc hfront]
  constructor
  · intro h
    cases h with
    | @badDigit more _ _ _ _ bound _ =>
      have := digitsValue_le_append (front ++ [c]) more
      omega
    | tooLarge => rfl
  · rintro rfl
    exact .tooLarge (List.nil_append _).symm (by simp) (by rwa [List.append_nil])

/-- At a character that is no digit nothing else stops the reading. -/
private theorem stops_iff_of_stray (hc : c.isDigit = false) (hfront : digitsValue front ≤ most) :
    Stops most front (c :: digits) e ↔ e = .badDigit := by
  constructor
  · intro h
    cases h with
    | badDigit => rfl
    | @tooLarge more _ split isDigit exceeds =>
      cases more with
      | nil =>
        rw [List.append_nil] at exceeds
        omega
      | cons x more =>
        cases split
        rw [isDigit c List.mem_cons_self] at hc
        cases hc
  · rintro rfl
    exact .badDigit (List.nil_append _).symm (by simp) (by rwa [List.append_nil]) hc

theorem naturalFrom_eq_error_iff (hfront : digitsValue front ≤ most) :
    naturalFrom most (digitsValue front) digits = .error e ↔ Stops most front digits e := by
  induction digits generalizing front with
  | nil =>
    rw [naturalFrom]
    exact iff_of_false (by simp) (not_stops_nil hfront)
  | cons c digits ih =>
    by_cases hc : c.isDigit = true
    · by_cases hle : digitsValue (front ++ [c]) ≤ most
      · rw [naturalFrom_cons hc hle, ih hle, stops_cons_iff hc hfront]
      · have hlt := Nat.lt_of_not_le hle
        rw [naturalFrom_cons_of_lt hc hlt, stops_iff_of_lt hc hfront hlt, Except.error.injEq, eq_comm]
    · have hstray := Bool.eq_false_iff.2 hc
      rw [naturalFrom_cons_of_stray hstray, stops_iff_of_stray hstray hfront, Except.error.injEq, eq_comm]

end

/-- Behind its sign a word is read digit by digit. -/
theorem natural?_of_unsigned (h : unsigned word ≠ []) :
    natural? most word = naturalFrom most (digitsValue []) (unsigned word) := by
  unfold natural?
  split
  · exact absurd rfl h
  · exact absurd rfl h
  · rfl
  · rename_i hplus
    have hunsigned : unsigned word = word := by
      unfold unsigned
      split
      · exact absurd rfl (hplus _)
      · rfl
    rw [hunsigned]
    rfl

theorem unsigned_eq_nil_iff : unsigned word = [] ↔ word = [] ∨ word = ['+'] := by
  unfold unsigned
  split
  · simp
  · rename_i hplus
    exact ⟨.inl, fun h => h.elim id fun hsign => absurd hsign (hplus [])⟩

/-- A numeral is read iff its value is within the bound. -/
theorem natural?_eq_ok_iff : natural? most word = .ok n ↔ WritesNatural most word n := by
  by_cases h : unsigned word = []
  · refine iff_of_false (fun hread => ?_) fun hwrites => hwrites.nonempty h
    rcases unsigned_eq_nil_iff.1 h with rfl | rfl <;> cases hread
  · have hnone : digitsValue [] ≤ most := Nat.zero_le _
    rw [natural?_of_unsigned h, naturalFrom_eq_ok_iff hnone, List.nil_append]
    exact ⟨fun ⟨hdigits, hvalue, hbound⟩ => ⟨h, hdigits, hvalue, hbound⟩,
      fun ⟨_, hdigits, hvalue, hbound⟩ => ⟨hdigits, hvalue, hbound⟩⟩

/-- A word is refused for what is wrong with it. -/
theorem natural?_eq_error_iff {e : WordError} : natural? most word = .error e ↔ RefusesNatural most word e := by
  have hnone : digitsValue [] ≤ most := Nat.zero_le _
  by_cases h : unsigned word = []
  · have hstops : ¬ Stops most [] (unsigned word) e := h ▸ not_stops_nil hnone
    constructor
    · intro hread
      rcases unsigned_eq_nil_iff.1 h with rfl | rfl
      · cases hread
        exact .empty rfl
      · cases hread
        exact .sign rfl
    · rintro (rfl | rfl | h)
      · rfl
      · rfl
      · exact absurd h hstops
  · rw [natural?_of_unsigned h, naturalFrom_eq_error_iff hnone]
    constructor
    · exact .stops
    · rintro (rfl | rfl | hstops)
      · exact absurd rfl h
      · exact absurd rfl h
      · exact hstops

/-- A number is written by its digits, with zeros in front of them or without. -/
theorem writesNatural_padded (width : Nat) (h : n ≤ most) : WritesNatural most (Timestamp.padded width n) n := by
  obtain ⟨c, r, hpadded, hdigit⟩ := Timestamp.exists_padded width n
  have hunsigned : unsigned (Timestamp.padded width n) = Timestamp.padded width n := by
    rw [hpadded]
    unfold unsigned
    split
    · rename_i hsign
      cases hsign
      cases hdigit
    · rfl
  refine ⟨?_, ?_, ?_, h⟩
  · rw [hunsigned, hpadded]
    exact List.cons_ne_nil _ _
  · rw [hunsigned]
    exact fun d hd => Timestamp.isDigit_of_mem_padded hd
  · rw [hunsigned]
    exact Timestamp.digitsValue_padded width n

/-! ### Truth values -/

/-- A word writes a truth value. -/
inductive WritesTruth : List Char → Bool → Prop
  | on : WritesTruth "true".toList true
  | off : WritesTruth "false".toList false

theorem truth?_eq_ok_iff {b : Bool} : truth? word = .ok b ↔ WritesTruth word b := by
  unfold truth?
  split
  · rename_i h
    subst h
    exact ⟨fun h => by cases h; exact .on, fun h => by cases h; rfl⟩
  · rename_i hon
    split
    · rename_i h
      subst h
      exact ⟨fun h => by cases h; exact .off, fun h => by cases h; rfl⟩
    · rename_i hoff
      refine iff_of_false (by simp) ?_
      rintro (_ | _)
      · exact hon rfl
      · exact hoff rfl

theorem truth?_eq_error_iff {e : WordError} :
    truth? word = .error e ↔ (∀ b, ¬ WritesTruth word b) ∧ e = .notTruth := by
  cases h : truth? word with
  | ok b => exact iff_of_false (by simp) fun hnone => hnone.1 b (truth?_eq_ok_iff.1 h)
  | error e' =>
    have hnone (b : Bool) : ¬ WritesTruth word b := by
      intro hb
      rw [truth?_eq_ok_iff.2 hb] at h
      cases h
    have he' : e' = .notTruth := by
      unfold truth? at h
      split at h
      · cases h
      · split at h <;> cases h
        rfl
    rw [he', Except.error.injEq, eq_comm]
    exact ⟨fun he => ⟨hnone, he⟩, fun he => he.2⟩

end Backlog.Text
