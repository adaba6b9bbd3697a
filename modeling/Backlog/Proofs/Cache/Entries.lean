import Backlog.Proofs.Store.Copies

/-!
# The entries of a timed cache

Under a key a cache has one entry at most, so that whatever thins its entries out acts on them key by key.  A lookup
sees the value of an entry while its time is not up.

Key facts:
* what stands under a key after an operation is an equation for each of them (`Timed.find?_sweep` and its companions);
* an operation that drops nothing but expired entries changes nothing that can be seen from then on
  (`Timed.live?_of_find?`);
* the size of a cache tells how many entries have come and gone (`Timed.size_insert`, `Timed.size_erase`).
-/

namespace Backlog.Cache

variable {κ α : Type}

/-- An entry whose time is up stays so. -/
theorem Entry.isExpired_mono {e : Entry α} {s now : Instant} (h : e.isExpired s = true) (later : s ≤ now) :
    e.isExpired now = true := by
  unfold isExpired at h ⊢
  split at h
  · cases h
  · rw [decide_eq_true_eq, Duration.le_iff] at h ⊢
    exact Nat.le_trans h later

/-- A value is there for ever, or until its span of time has passed. -/
theorem Entry.isExpired_lasting_eq_false_iff {value : α} {ttl : Duration} {s now : Instant} :
    (lasting value ttl s).isExpired now = false ↔ ttl = .zero ∨ now < s + ttl := by
  rw [← Bool.not_eq_true, isExpired_lasting, not_and, Nat.not_le, Duration.lt_iff, Duration.nanos_add,
    ← Decidable.or_iff_not_imp_left]

namespace Timed

variable [DecidableEq κ]

/-- Under a key there is one entry at most. -/
def Distinct (c : Timed κ α) : Prop := (c.entries.map Prod.fst).Nodup

/-- The value under a key that a lookup sees. -/
def live? (c : Timed κ α) (k : κ) (now : Instant) : Option α :=
  ((c.find? k).filter fun e => !e.isExpired now).map Entry.value

variable {c c' : Timed κ α} {k j : κ} {e : Entry α} {now s : Instant}

/-! ### One entry at most -/

omit [DecidableEq κ] in
theorem distinct_empty : (empty : Timed κ α).Distinct := List.nodup_nil

omit [DecidableEq κ] in
/-- Fewer entries are as distinct. -/
theorem Distinct.sublist (h : c.Distinct) (fewer : c'.entries.Sublist c.entries) : c'.Distinct :=
  List.Nodup.sublist (fewer.map _) h

theorem Distinct.erase (h : c.Distinct) (k : κ) : (c.erase k).Distinct := h.sublist List.filter_sublist

theorem Distinct.insert (h : c.Distinct) (k : κ) (e : Entry α) : (c.insert k e).Distinct := by
  refine List.nodup_cons.2 ⟨fun hmem => ?_, h.erase k⟩
  obtain ⟨x, hx, hkey⟩ := List.mem_map.1 hmem
  exact absurd hkey (of_decide_eq_true (List.mem_filter.1 hx).2)

theorem Distinct.delete (h : c.Distinct) (k : κ) : (c.delete k).2.Distinct := by
  unfold Timed.delete
  split
  · exact h.erase k
  · exact h

/-! ### The phases of a lookup -/

/-- The first phase of a lookup, by what stands under the key. -/
theorem probe_cases (c : Timed κ α) (k : κ) (now : Instant) :
    (c.find? k = none ∧ c.probe k now = (.absent, { c with tally.misses := c.tally.misses + 1 })) ∨
      (∃ e, c.find? k = some e ∧ e.isExpired now = true ∧ c.probe k now = (.expired, c)) ∨
      ∃ e, c.find? k = some e ∧ e.isExpired now = false ∧
        c.probe k now = (.hit e.value, { c with tally.hits := c.tally.hits + 1 }) := by
  unfold probe
  cases hk : c.find? k with
  | none => exact .inl ⟨rfl, rfl⟩
  | some e =>
    refine .inr ?_
    by_cases he : e.isExpired now = true
    · exact .inl ⟨e, rfl, he, if_pos he⟩
    · exact .inr ⟨e, rfl, Bool.not_eq_true _ ▸ he, if_neg he⟩

/-- The second phase of a lookup, by what stands under the key by now. -/
theorem evict_cases (c : Timed κ α) (k : κ) (now : Instant) :
    ((∀ e, c.find? k = some e → e.isExpired now = false) ∧
        c.evict k now = { c with tally.misses := c.tally.misses + 1 }) ∨
      ∃ e, c.find? k = some e ∧ e.isExpired now = true ∧
        c.evict k now = { c.erase k with
          tally.misses := c.tally.misses + 1, tally.expirations := c.tally.expirations + 1 } := by
  unfold evict
  cases hk : c.find? k with
  | none => exact .inl ⟨fun e he => (Option.some_ne_none e he.symm).elim, rfl⟩
  | some e =>
    dsimp only
    by_cases he : e.isExpired now = true
    · rw [if_pos he]
      exact .inr ⟨e, rfl, he, rfl⟩
    · rw [if_neg he]
      refine .inl ⟨fun e' he' => ?_, rfl⟩
      cases he'
      exact Bool.not_eq_true _ ▸ he

theorem Distinct.probe (h : c.Distinct) (k : κ) (now : Instant) : (c.probe k now).2.Distinct :=
  h.sublist (entries_probe c k now ▸ List.Sublist.refl _)

theorem Distinct.evict (h : c.Distinct) (k : κ) (now : Instant) : (c.evict k now).Distinct := by
  rcases c.evict_cases k now with ⟨-, hevict⟩ | ⟨e, -, -, hevict⟩ <;> rw [hevict]
  · exact h
  · exact h.erase k

/-! ### What stands under a key -/

private theorem lookup_filter {es : List (κ × Entry α)} (h : (es.map Prod.fst).Nodup) (p : κ × Entry α → Bool)
    (k : κ) : (es.filter p).lookup k = (es.lookup k).filter fun e => p (k, e) := by
  induction es with
  | nil => rfl
  | cons x es ih =>
    obtain ⟨a, e⟩ := x
    obtain ⟨hnew, hrest⟩ := List.nodup_cons.1 h
    rw [List.lookup_cons]
    by_cases hk : k = a
    · subst hk
      have hnone : es.lookup k = none := List.lookup_eq_none_iff.2 fun x hx => by
        simpa using fun hkey : k = x.1 => hnew (List.mem_map.2 ⟨x, hx, hkey.symm⟩)
      simp only [beq_self_eq_true, Option.filter_some]
      by_cases hp : p (k, e) = true
      · rw [List.filter_cons_of_pos hp, List.lookup_cons, if_pos hp]
        simp
      · rw [List.filter_cons_of_neg hp, ih hrest, hnone, if_neg hp]
        rfl
    · have hka : (k == a) = false := by simpa using hk
      rw [hka]
      by_cases hp : p (a, e) = true
      · rw [List.filter_cons_of_pos hp, List.lookup_cons, hka]
        exact ih hrest
      · rw [List.filter_cons_of_neg hp]
        exact ih hrest

theorem find?_deleteWhere (h : c.Distinct) (p : κ → Bool) (k : κ) :
    (c.deleteWhere p).2.find? k = if p k then none else c.find? k := by
  refine (lookup_filter h (fun e => !p e.1) k).trans ?_
  show (c.find? k).filter (fun _ => !p k) = _
  cases p k <;> cases c.find? k <;> rfl

theorem find?_sweep (h : c.Distinct) (now : Instant) (k : κ) :
    (c.sweep now).2.find? k = (c.find? k).filter fun e => !e.isExpired now :=
  lookup_filter h (fun e => !e.2.isExpired now) k

theorem find?_delete (c : Timed κ α) (k j : κ) : (c.delete k).2.find? j = if j = k then none else c.find? j := by
  unfold delete
  split
  · exact find?_erase c k j
  · rename_i hnone
    split
    · rename_i hj
      rw [hj]
      exact Option.not_isSome_iff_eq_none.1 hnone
    · rfl

theorem find?_probe (c : Timed κ α) (k j : κ) (now : Instant) : (c.probe k now).2.find? j = c.find? j :=
  congrArg (List.lookup j) (c.entries_probe k now)

/-- The second phase of a lookup drops what stands under the key if it has expired. -/
theorem find?_evict (c : Timed κ α) (k j : κ) (now : Instant) :
    (c.evict k now).find? j = if j = k then (c.find? j).filter fun e => !e.isExpired now else c.find? j := by
  rcases c.evict_cases k now with ⟨hlive, hevict⟩ | ⟨e, hk, he, hevict⟩ <;> rw [hevict]
  · show c.find? j = _
    split
    · rename_i hj
      subst hj
      cases hk : c.find? j with
      | none => rfl
      | some e =>
        rw [Option.filter_some, hlive e hk]
        rfl
    · rfl
  · refine (find?_erase c k j).trans ?_
    split
    · rename_i hj
      rw [hj, hk, Option.filter_some, he]
      rfl
    · rfl

/-! ### What can be seen -/

theorem get_fst (c : Timed κ α) (k : κ) (now : Instant) : (c.get k now).1 = c.live? k now := by
  unfold get live?
  rcases c.probe_cases k now with ⟨hk, h⟩ | ⟨e, hk, he, h⟩ | ⟨e, hk, he, h⟩
  · rw [h, hk]
    rfl
  · rw [h, hk, Option.filter_some, he]
    rfl
  · rw [h, hk, Option.filter_some, he]
    rfl

theorem exists?_eq (c : Timed κ α) (k : κ) (now : Instant) : c.exists? k now = (c.live? k now).isSome := by
  unfold exists? live?
  cases c.find? k with
  | none => rfl
  | some e =>
    rw [Option.filter_some, Option.any_some]
    cases e.isExpired now <;> rfl

/-- A lookup leaves a cache as its first phase does, or as both of its phases do. -/
theorem get_snd (c : Timed κ α) (k : κ) (now : Instant) :
    (c.get k now).2 = (c.probe k now).2 ∨ (c.get k now).2 = (c.probe k now).2.evict k now := by
  unfold get
  split <;> rename_i h <;> rw [h]
  · exact .inl rfl
  · exact .inl rfl
  · exact .inr rfl

/-- Whoever drops nothing but expired entries changes nothing that can be seen from then on. -/
theorem live?_of_find? (h : c'.find? k = c.find? k ∨ c'.find? k = (c.find? k).filter fun e => !e.isExpired s)
    (later : s ≤ now) : c'.live? k now = c.live? k now := by
  unfold live?
  rcases h with h | h
  · rw [h]
  · rw [h, Option.filter_filter]
    congr 2
    funext e
    cases hexpired : e.isExpired s
    · rfl
    · rw [Entry.isExpired_mono hexpired later]
      rfl

/-! ### Comings and goings -/

/-- Dropping what stands under a key makes a cache smaller by one, if anything stands there. -/
theorem size_erase (h : c.Distinct) (k : κ) : (c.erase k).size + (c.find? k).isSome.toNat = c.size := by
  show (c.entries.filter fun x => decide (x.1 ≠ k)).length + (c.entries.lookup k).isSome.toNat = c.entries.length
  unfold Distinct at h
  generalize c.entries = es at h
  induction es with
  | nil => rfl
  | cons x es ih =>
    obtain ⟨a, e⟩ := x
    obtain ⟨hnew, hrest⟩ := List.nodup_cons.1 h
    rw [List.lookup_cons, List.length_cons]
    by_cases hk : k = a
    · subst hk
      -- no other entry stands under the key
      have hall : es.filter (fun x => decide (x.1 ≠ k)) = es := List.filter_eq_self.2 fun x hx => by
        simpa using fun hkey : x.1 = k => hnew (List.mem_map.2 ⟨x, hx, hkey⟩)
      rw [List.filter_cons_of_neg (by simp), hall, beq_self_eq_true]
      rfl
    · have hka : (k == a) = false := by simpa using hk
      rw [List.filter_cons_of_pos (by simpa using Ne.symm hk), hka, List.length_cons, ← ih hrest]
      exact Nat.succ_add _ _

theorem size_erase_of_find? (h : c.Distinct) (hk : (c.find? k).isSome = true) : (c.erase k).size + 1 = c.size := by
  have hsize := size_erase h k
  rw [hk] at hsize
  exact hsize

/-- Storing an entry makes a cache larger by one, unless the entry takes the place of another. -/
theorem size_insert (h : c.Distinct) (k : κ) (e : Entry α) :
    (c.insert k e).size + (c.find? k).isSome.toNat = c.size + 1 := by
  have hsize : (c.insert k e).size = (c.erase k).size + 1 := rfl
  have herase := size_erase h k
  omega

end Timed

end Backlog.Cache
