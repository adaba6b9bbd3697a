import Backlog.Cache.Tally
import Backlog.Duration

/-!
# Timed caches

A map whose entries may expire.  An expired entry stays in the map, unseen, until a lookup, a deletion or a sweep
drops it.

Key facts:
* an entry has expired from the very moment that its time is up (`Entry.isExpired`);
* a lookup has two phases, `Timed.probe` and `Timed.evict`, between which others may act; `Timed.get` runs them at once;
* the operations act on `Timed.find?` as the operations of a map do (`find?_set`, `find?_erase`).
-/

namespace Backlog.Cache

/-- A stored value with the moment from which it no longer counts, if there is one. -/
structure Entry (α : Type) where
  value : α
  expiresAt : Option Instant
deriving DecidableEq, Repr

namespace Entry

variable {α : Type}

/-- Whether the time of an entry is up. -/
def isExpired (e : Entry α) (now : Instant) : Bool :=
  match e.expiresAt with
  | none => false
  | some at_ => at_ ≤ now

/-- A value stored for a span of time, for ever if the span is empty. -/
def lasting (value : α) (ttl : Duration) (now : Instant) : Entry α :=
  ⟨value, if ttl.isZero then none else some (now + ttl)⟩

theorem isExpired_lasting (value : α) (ttl : Duration) (s now : Instant) :
    (lasting value ttl s).isExpired now = true ↔ ttl ≠ .zero ∧ s.nanos + ttl.nanos ≤ now.nanos := by
  unfold lasting isExpired
  by_cases h : ttl.nanos = 0
  · obtain rfl : ttl = .zero := Duration.ext h
    simp [Duration.isZero, Duration.zero]
  · have hz : ttl ≠ .zero := fun e => h (by rw [e]; rfl)
    simp [Duration.isZero, h, hz, Duration.le_iff]

end Entry

/-- A cache with keys of type `κ` and values of type `α`. -/
structure Timed (κ α : Type) where
  entries : List (κ × Entry α)
  tally : Tally
deriving Repr

/-- What the first phase of a lookup finds. -/
inductive Probe (α : Type) where
  | hit (value : α)
  | absent
  /-- An entry whose time is up. -/
  | expired
deriving DecidableEq, Repr

namespace Timed

variable {κ α : Type} [DecidableEq κ]

/-- The cache without entries. -/
def empty : Timed κ α := ⟨[], .empty⟩

instance : Inhabited (Timed κ α) := ⟨empty⟩

/-- The entry under a key, expired or not. -/
def find? (c : Timed κ α) (k : κ) : Option (Entry α) := c.entries.lookup k

/-- The number of entries, expired ones included. -/
def size (c : Timed κ α) : Nat := c.entries.length

/-- The entries without those under a key. -/
private def without (es : List (κ × Entry α)) (k : κ) : List (κ × Entry α) := es.filter fun e => e.1 ≠ k

/-- Drops the entry under a key and counts nothing. -/
def erase (c : Timed κ α) (k : κ) : Timed κ α := { c with entries := without c.entries k }

/-- Stores an entry under a key in place of any other and counts nothing. -/
def insert (c : Timed κ α) (k : κ) (e : Entry α) : Timed κ α := { c with entries := (k, e) :: without c.entries k }

/-- Counts something. -/
private def count (c : Timed κ α) (f : Tally → Tally) : Timed κ α := { c with tally := f c.tally }

/-- The first phase of a lookup, which only reads the entries: a live value is a hit, a missing one a miss. -/
def probe (c : Timed κ α) (k : κ) (now : Instant) : Probe α × Timed κ α :=
  match c.find? k with
  | none => (.absent, c.count fun t => { t with misses := t.misses + 1 })
  | some e =>
    if e.isExpired now then (.expired, c)
    else (.hit e.value, c.count fun t => { t with hits := t.hits + 1 })

/-- The second phase of a lookup that has met an expired entry: what stands under the key by now is dropped if it too
had expired when the lookup began. -/
def evict (c : Timed κ α) (k : κ) (now : Instant) : Timed κ α :=
  let c :=
    match c.find? k with
    | none => c
    | some e =>
      if e.isExpired now then (c.erase k).count fun t => { t with expirations := t.expirations + 1 } else c
  c.count fun t => { t with misses := t.misses + 1 }

/-- Looks up a live value; an expired entry is dropped and counts as a miss. -/
def get (c : Timed κ α) (k : κ) (now : Instant) : Option α × Timed κ α :=
  match c.probe k now with
  | (.hit v, c) => (some v, c)
  | (.absent, c) => (none, c)
  | (.expired, c) => (none, c.evict k now)

/-- Stores a value for a span of time, for ever if the span is empty. -/
def set (c : Timed κ α) (k : κ) (value : α) (ttl : Duration) (now : Instant) : Timed κ α :=
  (c.insert k (.lasting value ttl now)).count fun t => { t with sets := t.sets + 1 }

/-- Drops the entry under a key, and says whether there was one. -/
def delete (c : Timed κ α) (k : κ) : Bool × Timed κ α :=
  if (c.find? k).isSome then (true, (c.erase k).count fun t => { t with deletes := t.deletes + 1 }) else (false, c)

/-- Whether a live value stands under a key. -/
def exists? (c : Timed κ α) (k : κ) (now : Instant) : Bool := (c.find? k).any fun e => !e.isExpired now

/-- Drops every entry whose key satisfies a condition, and says how many there were. -/
def deleteWhere (c : Timed κ α) (p : κ → Bool) : Nat × Timed κ α :=
  let kept := c.entries.filter fun e => !p e.1
  let dropped := c.entries.length - kept.length
  (dropped, ⟨kept, { c.tally with deletes := c.tally.deletes + dropped }⟩)

/-- Drops every expired entry, and says how many there were. -/
def sweep (c : Timed κ α) (now : Instant) : Nat × Timed κ α :=
  let kept := c.entries.filter fun e => !e.2.isExpired now
  let dropped := c.entries.length - kept.length
  (dropped, ⟨kept, { c.tally with expirations := c.tally.expirations + dropped }⟩)

/-! ### The entries as a map -/

private theorem lookup_without_self (es : List (κ × Entry α)) (k : κ) : (without es k).lookup k = none := by
  induction es with
  | nil => rfl
  | cons e es ih =>
    obtain ⟨a, v⟩ := e
    unfold without at ih ⊢
    by_cases h : a = k
    · rw [List.filter_cons_of_neg (by simp [h])]
      exact ih
    · have hk : (k == a) = false := by simpa using fun e => h e.symm
      rw [List.filter_cons_of_pos (by simp [h]), List.lookup_cons, hk]
      exact ih

private theorem lookup_without_ne (es : List (κ × Entry α)) {k j : κ} (hj : j ≠ k) :
    (without es k).lookup j = es.lookup j := by
  induction es with
  | nil => rfl
  | cons e es ih =>
    obtain ⟨a, v⟩ := e
    unfold without at ih ⊢
    by_cases h : a = k
    · have hja : (j == a) = false := by simpa [h] using hj
      rw [List.filter_cons_of_neg (by simp [h]), List.lookup_cons, hja]
      exact ih
    · rw [List.filter_cons_of_pos (by simp [h]), List.lookup_cons, List.lookup_cons, ih]

theorem find?_erase (c : Timed κ α) (k j : κ) : (c.erase k).find? j = if j = k then none else c.find? j := by
  by_cases h : j = k
  · simp [erase, find?, h, lookup_without_self]
  · simp [erase, find?, h, lookup_without_ne c.entries h]

theorem find?_insert (c : Timed κ α) (k j : κ) (e : Entry α) :
    (c.insert k e).find? j = if j = k then some e else c.find? j := by
  by_cases h : j = k
  · simp [insert, find?, h]
  · have : (j == k) = false := by simpa using h
    simp [insert, find?, h, List.lookup_cons, this, lookup_without_ne c.entries h]

theorem find?_set (c : Timed κ α) (k j : κ) (v : α) (ttl : Duration) (now : Instant) :
    (c.set k v ttl now).find? j = if j = k then some (.lasting v ttl now) else c.find? j :=
  find?_insert c k j _

end Timed

end Backlog.Cache
