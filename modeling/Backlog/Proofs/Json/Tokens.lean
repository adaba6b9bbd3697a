import Backlog.Json.Record

/-!
# Written tokens are read back

Strings and integers of a JSON text.  A string may hold any character: what would end it, or may not stand in it, is
written with a backslash.  An integer is written with its digits alone, so it is known to be at its end by the character
behind it.

Key facts: a character is read back from whatever it is written as (`stringChar_encodeChar`), and so is a string
(`stringTail_encoded`); a number of 64 bits is read back from its digits (`unsigned_toDigits`), with its sign
(`readInteger_integerText`).
-/

namespace Backlog.Json

variable {c : Char} {r : List Char}

/-! ### Blanks -/

theorem skipSpace_cons (h : isSpace c = false) (r : List Char) : skipSpace (c :: r) = c :: r :=
  List.dropWhile_cons_of_neg (by simp [h])

theorem isSpace_of_isDigit (h : c.isDigit = true) : isSpace c = false := by
  unfold isSpace
  have hne : ∀ x : Char, x.isDigit = false → (c == x) = false := fun x hx =>
    beq_false_of_ne (fun hcx => by rw [hcx, hx] at h; cases h)
  rw [hne ' ' (by decide), hne '\n' (by decide), hne '\t' (by decide), hne '\r' (by decide)]
  rfl

/-! ### Strings -/

theorem hexValue?_hexDigit {n : Nat} (h : n < 16) : hexValue? (hexDigit n) = some n := by
  have hall : ∀ m < 16, hexValue? (hexDigit m) = some m := by decide
  exact hall n h

/-- A control character that has no letter is read back from its code unit. -/
private theorem codeUnit_control (h : c.toNat < 0x20) (r : List Char) :
    codeUnit ('0' :: '0' :: hexDigit (c.toNat / 16) :: hexDigit (c.toNat % 16) :: r) = .ok (c.toNat, r) := by
  have hhigh := hexValue?_hexDigit (show c.toNat / 16 < 16 by omega)
  have hlow := hexValue?_hexDigit (show c.toNat % 16 < 16 by omega)
  have hzero : hexValue? '0' = some 0 := by decide
  have hsum : ((0 * 16 + 0) * 16 + c.toNat / 16) * 16 + c.toNat % 16 = c.toNat := by omega
  simp only [codeUnit, hzero, hhigh, hlow, hsum]

private theorem unicodeEscape_control (h : c.toNat < 0x20) (r : List Char) :
    unicodeEscape ('0' :: '0' :: hexDigit (c.toNat / 16) :: hexDigit (c.toNat % 16) :: r) = .ok (c, r) := by
  unfold unicodeEscape
  rw [codeUnit_control h]
  dsimp only
  rw [if_neg (by omega), if_pos (by omega), Char.ofNat_toNat]

/-- A character that is neither a quote nor a backslash nor a control stands for itself. -/
private theorem stringChar_plain (hquote : c ≠ '"') (hbackslash : c ≠ '\\') (hcontrol : ¬ c.toNat < 0x20)
    (r : List Char) : stringChar (c :: r) = .ok (some c, r) := by
  unfold stringChar
  split
  · rename_i hnil
    cases hnil
  · rename_i hcons
    cases hcons
    exact absurd rfl hquote
  · rename_i hcons
    cases hcons
    exact absurd rfl hbackslash
  · rename_i hcons
    cases hcons
    exact absurd rfl hbackslash
  · rename_i hcons
    cases hcons
    exact absurd rfl hbackslash
  · rename_i hcons
    cases hcons
    exact if_neg hcontrol

theorem stringChar_encodeChar (c : Char) (r : List Char) : stringChar (encodeChar c ++ r) = .ok (some c, r) := by
  unfold encodeChar
  split
  · subst c
    rfl
  split
  · subst c
    rfl
  split
  · subst c
    rfl
  split
  · subst c
    rfl
  split
  · subst c
    rfl
  split
  · subst c
    rfl
  split
  · subst c
    rfl
  split
  · rename_i hcontrol
    show (unicodeEscape ('0' :: '0' :: hexDigit (c.toNat / 16) :: hexDigit (c.toNat % 16) :: r)).map
      (fun p => (some p.1, p.2)) = _
    rw [unicodeEscape_control hcontrol]
    rfl
  · rename_i hquote hbackslash _ _ _ _ _ hcontrol
    exact stringChar_plain hquote hbackslash hcontrol r

private theorem length_encodeChar_pos (c : Char) : 0 < (encodeChar c).length := by
  unfold encodeChar
  repeat' split
  all_goals exact Nat.zero_lt_succ _

/-- A string is read up to its closing quote. -/
theorem stringTail_encoded (s r : List Char) : stringTail (s.flatMap encodeChar ++ '"' :: r) = .ok (s, r) := by
  induction s with
  | nil =>
    rw [stringTail]
    rfl
  | cons c s ih =>
    have hchar := stringChar_encodeChar c (s.flatMap encodeChar ++ '"' :: r)
    have hpos := length_encodeChar_pos c
    have hshorter : (s.flatMap encodeChar ++ '"' :: r).length
        < (encodeChar c ++ (s.flatMap encodeChar ++ '"' :: r)).length := by
      rw [@List.length_append _ (encodeChar c)]
      omega
    rw [List.flatMap_cons, List.append_assoc, stringTail, hchar]
    dsimp only
    rw [if_pos hshorter, ih]
    rfl

/-- A string with its quotes, as it stands before other text. -/
theorem encodeString_append (s r : List Char) : encodeString s ++ r = '"' :: (s.flatMap encodeChar ++ '"' :: r) := by
  unfold encodeString
  rw [List.append_assoc]
  rfl

/-! ### Numbers -/

/-- Whether a number ends before a text: the text goes on with nothing that could belong to a number. -/
def EndsNumber (r : List Char) : Prop := ∀ c ∈ r.head?, c.isDigit = false ∧ c ≠ '.' ∧ c ≠ 'e' ∧ c ≠ 'E'

theorem endsNumber_cons (h : c.isDigit = false ∧ c ≠ '.' ∧ c ≠ 'e' ∧ c ≠ 'E') (r : List Char) :
    EndsNumber (c :: r) := by
  intro x hx
  obtain rfl : c = x := Option.mem_some.1 hx
  exact h

private theorem le_ofDigitChars (ds : List Char) (n : Nat) : n ≤ Nat.ofDigitChars 10 ds n := by
  rw [Nat.ofDigitChars_eq_ofDigitChars_zero]
  have hpow : 1 ≤ 10 ^ ds.length := Nat.one_le_pow _ _ (by decide)
  exact Nat.le_trans (Nat.le_mul_of_pos_left n hpow) (Nat.le_add_right _ _)

/-- Digits are read into a significand that stays within bounds. -/
private theorem absorb_append {ds : List Char} (hds : ∀ c ∈ ds, c.isDigit = true) (hr : EndsNumber r) (n count : Nat)
    (hfits : Nat.ofDigitChars 10 ds n ≤ mostSignificand) :
    absorb n count (ds ++ r) = (Nat.ofDigitChars 10 ds n, count + ds.length, r) := by
  induction ds generalizing n count with
  | nil =>
    cases r with
    | nil => rfl
    | cons c r =>
      have hc : c.isDigit = false := (hr c rfl).1
      rw [List.nil_append, absorb, if_neg (by simp [hc])]
      rfl
  | cons c ds ih =>
    have hc : c.isDigit = true := hds c List.mem_cons_self
    have hcons : Nat.ofDigitChars 10 (c :: ds) n = Nat.ofDigitChars 10 ds (10 * n + (c.toNat - 48)) :=
      Nat.ofDigitChars_cons
    rw [hcons] at hfits ⊢
    have hstep : 10 * n + (c.toNat - 48) ≤ mostSignificand := Nat.le_trans (le_ofDigitChars ds _) hfits
    rw [List.cons_append, absorb, if_pos ⟨hc, hstep⟩, ih (fun x hx => hds x (List.mem_cons_of_mem _ hx)) _ _ hfits,
      List.length_cons, Nat.add_assoc, Nat.add_comm 1]

private theorem digitChar_ne_zero {n : Nat} (hpos : 0 < n) (hlt : n < 10) : n.digitChar ≠ '0' := by
  have hall : ∀ m < 10, 0 < m → m.digitChar ≠ '0' := by decide
  exact hall n hlt hpos

/-- A number above zero does not begin with a zero. -/
theorem exists_toDigits {n : Nat} (hpos : 0 < n) :
    ∃ c ds, Nat.toDigits 10 n = c :: ds ∧ c ≠ '0' := by
  induction n using Nat.strongRecOn with
  | ind n ih =>
    rw [Nat.toDigits_eq_if (by decide)]
    split
    · rename_i hlt
      exact ⟨_, _, rfl, digitChar_ne_zero hpos hlt⟩
    · obtain ⟨c, ds, hdigits, hc⟩ := ih (n / 10) (by omega) (by omega)
      exact ⟨c, ds ++ [(n % 10).digitChar], by rw [hdigits]; rfl, hc⟩

/-- What stands behind a number of digits alone is no part of it. -/
private theorem numberTail_of_ends (hr : EndsNumber r) (negative : Bool) (n : Nat) :
    numberTail negative n 0 r =
      if !negative then .ok (.integer n, r)
      else if n = 0 ∨ 9223372036854775808 < n then .ok (.other, r) else .ok (.integer (-n), r) := by
  unfold numberTail
  split
  · exact absurd rfl (hr '.' rfl).2.1
  · exact absurd rfl (hr 'e' rfl).2.2.1
  · exact absurd rfl (hr 'E' rfl).2.2.2
  · exact if_neg (by decide)

/-- The digits of a number are read up to their end. -/
theorem unsigned_toDigits (negative : Bool) {n : Nat} (hn : n ≤ mostSignificand) (hr : EndsNumber r) :
    unsigned negative (Nat.toDigits 10 n ++ r) = numberTail negative n 0 r := by
  rcases Nat.eq_zero_or_pos n with rfl | hpos
  · rw [Nat.toDigits_zero]
    show unsigned negative ('0' :: r) = _
    unfold unsigned
    cases r with
    | nil => rfl
    | cons c r =>
      have hc : c.isDigit = false := (hr c rfl).1
      simp [hc]
  · obtain ⟨c, ds, hdigits, hne⟩ := exists_toDigits hpos
    have hall : ∀ x ∈ c :: ds, x.isDigit = true := fun x hx =>
      Nat.isDigit_of_mem_toDigits (b := 10) (n := n) (by decide) (by decide) (hdigits ▸ hx)
    have hvalue : Nat.ofDigitChars 10 ds (c.toNat - 48) = n := by
      have hwhole : Nat.ofDigitChars 10 (c :: ds) 0 = n := hdigits ▸ Nat.ofDigitChars_ten_toDigits
      rwa [Nat.ofDigitChars_cons, Nat.mul_zero, Nat.zero_add] at hwhole
    have habsorb : absorb (c.toNat - 48) 1 (ds ++ r) = (n, 1 + ds.length, r) := by
      rw [absorb_append (fun x hx => hall x (List.mem_cons_of_mem _ hx)) hr _ _ (by rw [hvalue]; exact hn), hvalue]
    have hstops : r.takeWhile Char.isDigit = [] ∧ r.dropWhile Char.isDigit = r := by
      cases r with
      | nil => exact ⟨rfl, rfl⟩
      | cons x r =>
        have hx : x.isDigit = false := (hr x rfl).1
        simp [hx]
    rw [hdigits, List.cons_append]
    unfold unsigned
    split
    · rename_i hnil
      cases hnil
    · rename_i hcons
      cases hcons
      exact absurd rfl hne
    · rename_i hcons
      cases hcons
      rw [if_pos (hall c List.mem_cons_self), habsorb]
      dsimp only
      rw [hstops.1, hstops.2]
      rfl

/-- An integer that fits 64 bits is read back from its text, if it lies between the bounds that are asked for. -/
theorem readInteger_integerText {least most n : Int} (hleast : -9223372036854775808 ≤ least)
    (hmost : most ≤ 9223372036854775807) (hn : least ≤ n ∧ n ≤ most) (hr : EndsNumber r) :
    readInteger least most (integerText n ++ r) = .ok (n, r) := by
  have hfits : n.natAbs ≤ mostSignificand := by
    unfold mostSignificand
    omega
  have hbounded : bounded least most (.integer n) = .ok n := if_pos hn
  have hbind {x : Except Fault (Number × List Char)} (hx : x = .ok (.integer n, r)) :
      (x.bind fun p => (bounded least most p.1).bind fun k => .ok (k, p.2)) = .ok (n, r) := by
    rw [hx]
    show (bounded least most (.integer n)).bind (fun n => .ok (n, r)) = _
    rw [hbounded]
    rfl
  unfold integerText
  split
  · rename_i hnegative
    have hread : unsigned true (Nat.toDigits 10 n.natAbs ++ r) = .ok (.integer n, r) := by
      have habs : -(n.natAbs : Int) = n := by omega
      rw [unsigned_toDigits true hfits hr, numberTail_of_ends hr]
      simp only [Bool.not_true, Bool.false_eq_true, if_false]
      rw [if_neg (by omega), habs]
    exact hbind hread
  · rename_i hnonneg
    have hread : unsigned false (Nat.toDigits 10 n.natAbs ++ r) = .ok (.integer n, r) := by
      have habs : (n.natAbs : Int) = n := by omega
      rw [unsigned_toDigits false hfits hr, numberTail_of_ends hr, habs]
      rfl
    obtain ⟨c, ds, hdigits⟩ := List.exists_cons_of_ne_nil (Nat.toDigits_ne_nil (n := n.natAbs) (b := 10))
    have hdigit : c.isDigit = true :=
      Nat.isDigit_of_mem_toDigits (b := 10) (n := n.natAbs) (by decide) (by decide)
        (hdigits ▸ List.mem_cons_self)
    have hspace : isSpace c = false := isSpace_of_isDigit hdigit
    rw [hdigits] at hread ⊢
    have hskip : skipSpace (c :: ds ++ r) = c :: (ds ++ r) := skipSpace_cons hspace _
    unfold readInteger
    rw [hskip]
    split
    · rename_i hcons
      cases hcons
      exact absurd hdigit (by decide)
    · rename_i hcons
      cases hcons
      rw [if_pos hdigit]
      exact hbind hread
    · rename_i hnil
      cases hnil

end Backlog.Json
