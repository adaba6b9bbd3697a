/-!
# White space

The characters with the Unicode property `White_Space`, and the operations on character lists that skip them.

Key facts:
* `dropBlanks` leaves a text that does not start with a blank (`dropBlanks_head`);
* blanks around a text do not change what `trim` leaves of it (`trim_append_blanks`, `trim_blanks_append`).
-/

namespace Backlog.Text

/-- Whether a character has the Unicode property `White_Space`. -/
def isBlank (c : Char) : Bool :=
  let n := c.toNat
  (9 ≤ n && n ≤ 13) || n == 0x20 || n == 0x85 || n == 0xA0 || n == 0x1680 || (0x2000 ≤ n && n ≤ 0x200A)
    || n == 0x2028 || n == 0x2029 || n == 0x202F || n == 0x205F || n == 0x3000

/-- A text without the blanks that it starts with. -/
def dropBlanks (s : List Char) : List Char := s.dropWhile isBlank

/-- A text without the blanks at its two ends. -/
def trim (s : List Char) : List Char := (dropBlanks (dropBlanks s).reverse).reverse

theorem dropBlanks_head {s : List Char} {c : Char} {r : List Char} (h : dropBlanks s = c :: r) :
    isBlank c = false := by
  have := List.head?_dropWhile_not isBlank s
  simp only [dropBlanks] at h
  rw [h] at this
  simpa using this

theorem dropBlanks_append {s : List Char} (h : ∀ c ∈ s, isBlank c = true) (t : List Char) :
    dropBlanks (s ++ t) = dropBlanks t := by
  induction s with
  | nil => rfl
  | cons c s ih =>
    simp only [List.mem_cons, forall_eq_or_imp] at h
    rw [List.cons_append, dropBlanks, List.dropWhile_cons_of_pos h.1]
    exact ih h.2

theorem trim_blanks_append {s : List Char} (h : ∀ c ∈ s, isBlank c = true) (t : List Char) :
    trim (s ++ t) = trim t := by
  rw [trim, dropBlanks_append h, trim]

theorem trim_append_blanks {s : List Char} (h : ∀ c ∈ s, isBlank c = true) (t : List Char) :
    trim (t ++ s) = trim t := by
  have hs : dropBlanks s = [] := by
    have := dropBlanks_append h []
    rwa [List.append_nil] at this
  have hr : ∀ c ∈ s.reverse, isBlank c = true := fun c hc => h c (List.mem_reverse.1 hc)
  have e : dropBlanks (t ++ s) = if (dropBlanks t).isEmpty then dropBlanks s else dropBlanks t ++ s :=
    List.dropWhile_append ..
  simp only [trim, e]
  split
  · rename_i ht
    rw [hs, List.isEmpty_iff.1 ht]
  · rw [List.reverse_append, dropBlanks_append hr]

end Backlog.Text
