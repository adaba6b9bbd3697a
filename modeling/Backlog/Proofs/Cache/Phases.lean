import Backlog.Proofs.Cache.Calls
import Mathlib.Algebra.GroupWithZero.Nat

/-!
# Overlapping calls of a cache

A call reads the clock when it begins, then waits for the cache, and a lookup that meets an expired entry waits once
more before it drops the entry.  In the meantime other calls act on the cache and time passes.  What a call has stored
or deleted it counts after it has let go of the cache.

Key facts:
* the phases of a call that nobody interrupts do what the call does (`Stage.finishes_perform`);
* a phase of a lookup or a sweep drops only what had expired before the call began (`Stage.find?_act_of_cleans`);
* a phase changes the counts by what it does to the entries, but for what is still to be counted
  (`Phase.Lawful.balanced`).
-/

namespace Backlog.Cache

variable {α : Type}

/-! ### The phases of a call -/

/-- Where a call stands. -/
inductive Stage (α : Type) where
  /-- The call has read the clock. -/
  | begun (call : Call α)
  /-- A lookup has met an expired entry. -/
  | evicting (key : String)
  /-- An entry is stored and not counted yet. -/
  | stored
  /-- An entry is deleted and not counted yet. -/
  | deleted

namespace Stage

/-- What a lookup does after its first phase. -/
def afterProbe (key : String) : Probe α → Reply α ⊕ Stage α
  | .hit v => .inl (.value (some v))
  | .absent => .inl (.value none)
  | .expired => .inr (evicting key)

/-- The next phase of a call that began at `start`: the reply that ends the call, or where the call stands then, and the
cache that the phase leaves. -/
def act (settings : CacheSettings) (start : Instant) (c : Timed String α) :
    Stage α → (Reply α ⊕ Stage α) × Timed String α
  | begun (.get key) => (c.probe key start).map (afterProbe key) id
  | begun (.set key value ttl) => (.inr stored, c.insert key (.lasting value ttl start))
  | begun (.setDefault key value) => (.inr stored, c.insert key (.lasting value settings.defaultTtl start))
  | begun (.delete key) => if (c.find? key).isSome then (.inr deleted, c.erase key) else (.inl (.flag false), c)
  | begun (.exists? key) => (.inl (.flag (c.exists? key start)), c)
  | begun (.deleteMatching pattern) =>
    (c.deleteWhere fun key => occursIn pattern.toList key.toList).map (fun n => .inl (.count n)) id
  | begun .sweep => (c.sweep start).map (fun n => .inl (.count n)) id
  | evicting key => (.inl (.value none), c.evict key start)
  | stored => (.inl .done, { c with tally.sets := c.tally.sets + 1 })
  | deleted => (.inl (.flag true), { c with tally.deletes := c.tally.deletes + 1 })

theorem act_delete (settings : CacheSettings) (start : Instant) (c : Timed String α) (key : String) :
    (begun (.delete key)).act settings start c =
      if (c.find? key).isSome then (.inr deleted, c.erase key) else (.inl (.flag false), c) := rfl

/-- A call that nobody interrupts ends with a reply and leaves a cache. -/
inductive Finishes (settings : CacheSettings) (start : Instant) :
    Stage α → Timed String α → Reply α → Timed String α → Prop
  | last {stage : Stage α} {c c' : Timed String α} {r : Reply α} :
    stage.act settings start c = (.inl r, c') → Finishes settings start stage c r c'
  | more {stage next : Stage α} {c c' c'' : Timed String α} {r : Reply α} :
    stage.act settings start c = (.inr next, c') → Finishes settings start next c' r c'' →
    Finishes settings start stage c r c''

/-- The phases of a call do together what the call does. -/
theorem finishes_perform (settings : CacheSettings) (start : Instant) (c : Timed String α) (call : Call α) :
    Finishes settings start (begun call) c (call.perform settings c start).1 (call.perform settings c start).2 := by
  cases call with
  | get key =>
    have hact : (begun (.get key)).act settings start c = (c.probe key start).map (afterProbe key) id := rfl
    show Finishes settings start (begun (.get key)) c (.value (c.get key start).1) (c.get key start).2
    unfold Timed.get
    rcases c.probe_cases key start with ⟨-, h⟩ | ⟨e, -, -, h⟩ | ⟨e, -, -, h⟩ <;> rw [h] at hact ⊢
    · exact .last hact
    · exact .more hact (.last rfl)
    · exact .last hact
  | set key value ttl => exact .more rfl (.last rfl)
  | setDefault key value => exact .more rfl (.last rfl)
  | delete key =>
    show Finishes settings start (begun (.delete key)) c (.flag (c.delete key).1) (c.delete key).2
    unfold Timed.delete
    split
    · rename_i h
      exact .more (if_pos h) (.last rfl)
    · rename_i h
      exact .last (if_neg h)
  | exists? key => exact .last rfl
  | deleteMatching pattern => exact .last rfl
  | sweep => exact .last rfl

/-- Lookups. -/
def isLookup : Stage α → Bool
  | begun (.get _) => true
  | evicting _ => true
  | _ => false

/-- Lookups and sweeps. -/
def cleans : Stage α → Bool
  | begun .sweep => true
  | stage => stage.isLookup

/-- Deletions. -/
def deletes : Stage α → Bool
  | begun (.delete _) => true
  | begun (.deleteMatching _) => true
  | _ => false

/-- The key under which the next phase stores an entry. -/
def target? : Stage α → Option String
  | begun (.set key _ _) => some key
  | begun (.setDefault key _) => some key
  | _ => none

/-- The number of stored entries that the call has not counted yet. -/
def owedSets : Stage α → Nat
  | stored => 1
  | _ => 0

/-- The number of deleted entries that the call has not counted yet. -/
def owedDeletes : Stage α → Nat
  | deleted => 1
  | _ => 0

/-- Whether the call waits for the cache. -/
def waits : Stage α → Bool
  | begun _ => true
  | evicting _ => true
  | _ => false

/-- A call that waits has nothing to count. -/
theorem owed_of_waits {stage : Stage α} (h : stage.waits = true) : stage.owedSets = 0 ∧ stage.owedDeletes = 0 := by
  cases stage <;> first | exact ⟨rfl, rfl⟩ | cases h

variable {c : Timed String α} {k : String} {e : Entry α}

theorem distinct_act (hc : c.Distinct) (settings : CacheSettings) (start : Instant) (stage : Stage α) :
    (stage.act settings start c).2.Distinct := by
  cases stage with
  | begun call =>
    cases call with
    | get key => exact hc.probe key start
    | set key value ttl => exact hc.insert key _
    | setDefault key value => exact hc.insert key _
    | delete key =>
      rw [act_delete]
      split
      · exact hc.erase key
      · exact hc
    | exists? key => exact hc
    | deleteMatching pattern => exact hc.sublist List.filter_sublist
    | sweep => exact hc.sublist List.filter_sublist
  | evicting key => exact hc.evict key start
  | stored => exact hc
  | deleted => exact hc

/-- A phase of a lookup or a sweep leaves under a key what stood there, unless that had expired when the call began. -/
theorem find?_act_of_cleans (hc : c.Distinct) (settings : CacheSettings) (start : Instant) {stage : Stage α}
    (hstage : stage.cleans = true) (k : String) :
    (stage.act settings start c).2.find? k = c.find? k ∨
      (stage.act settings start c).2.find? k = (c.find? k).filter fun e => !e.isExpired start := by
  cases stage with
  | begun call =>
    cases call with
    | get key => exact .inl (c.find?_probe key k start)
    | sweep => exact .inr (Timed.find?_sweep hc start k)
    | _ => cases hstage
  | evicting key =>
    show (c.evict key start).find? k = _ ∨ (c.evict key start).find? k = _
    rw [Timed.find?_evict]
    split
    · exact .inr rfl
    · exact .inl rfl
  | _ => cases hstage

/-- What a phase has stored has an end only after the moment at which the call began. -/
theorem isExpired_of_target? {settings : CacheSettings} {start s : Instant} {stage : Stage α}
    (hstage : stage.target? = some k) (he : (stage.act settings start c).2.find? k = some e) (hs : s ≤ start) :
    e.isExpired s = false := by
  have hlasting (value : α) (ttl : Duration) (key : String) (hkey : some key = some k)
      (he : (c.insert key (.lasting value ttl start)).find? k = some e) : e.isExpired s = false := by
    cases hkey
    rw [Timed.find?_insert, if_pos rfl] at he
    cases he
    refine Entry.isExpired_lasting_eq_false_iff.2 ?_
    by_cases hzero : ttl = .zero
    · exact .inl hzero
    · refine .inr ?_
      have hpos : ttl.nanos ≠ 0 := fun h => hzero (Duration.ext h)
      rw [Duration.le_iff] at hs
      rw [Duration.lt_iff, Duration.nanos_add]
      omega
  cases stage with
  | begun call =>
    cases call with
    | set key value ttl => exact hlasting value ttl key hstage he
    | setDefault key value => exact hlasting value settings.defaultTtl key hstage he
    | _ => cases hstage
  | _ => cases hstage

end Stage

/-- A call after a phase, if the phase has not ended it. -/
def goesOn (start : Instant) (result : Reply α ⊕ Stage α) : List (Instant × Stage α) :=
  result.getRight?.toList.map fun stage => (start, stage)

theorem fst_of_mem_goesOn {start : Instant} {result : Reply α ⊕ Stage α} {u : Instant × Stage α}
    (h : u ∈ goesOn start result) : u.1 = start := by
  obtain ⟨stage, -, rfl⟩ := List.mem_map.1 h
  rfl

/-- A phase of a call, noted down by somebody who sees everything. -/
structure Phase (α : Type) where
  /-- The moment at which the call began. -/
  start : Instant
  /-- The moment at which the phase took place. -/
  moment : Instant
  stage : Stage α
  before : Timed String α
  result : Reply α ⊕ Stage α
  after : Timed String α

namespace Phase

/-- The phase is one that a call goes through. -/
structure Lawful (settings : CacheSettings) (p : Phase α) : Prop where
  distinct : p.before.Distinct
  act : p.stage.act settings p.start p.before = (p.result, p.after)

theorem Lawful.distinct_after {settings : CacheSettings} {p : Phase α} (h : p.Lawful settings) : p.after.Distinct := by
  have hafter := Stage.distinct_act h.distinct settings p.start p.stage
  rw [h.act] at hafter
  exact hafter

/-- A lookup or a sweep drops nothing but what had expired when the call began. -/
theorem Lawful.isExpired_of_cleans {settings : CacheSettings} {p : Phase α} (h : p.Lawful settings)
    (hcleans : p.stage.cleans = true) {k : String} {e : Entry α} (hbefore : p.before.find? k = some e)
    (hafter : p.after.find? k ≠ some e) : p.after.find? k = none ∧ e.isExpired p.start = true := by
  have hfind := Stage.find?_act_of_cleans h.distinct settings p.start hcleans k
  rw [h.act, hbefore, Option.filter_some] at hfind
  rcases hfind with hfind | hfind
  · exact absurd hfind hafter
  · cases he : e.isExpired p.start
    · rw [he] at hfind
      exact absurd hfind hafter
    · rw [he] at hfind
      exact ⟨hfind, rfl⟩

/-- The phase ends a lookup. -/
def endsLookup (p : Phase α) : Bool := p.stage.isLookup && p.result.isLeft

/-- The phase stores an entry. -/
def stores (p : Phase α) : Bool := p.stage.target?.isSome

/-- The phase stores an entry in place of another. -/
def replaces (p : Phase α) : Bool := p.stage.target?.any fun key => (p.before.find? key).isSome

/-- The number of entries that the phase drops on demand. -/
def deleted (p : Phase α) : Nat := if p.stage.deletes then p.before.size - p.after.size else 0

/-- The number of entries that the phase drops because they have expired. -/
def expired (p : Phase α) : Nat := if p.stage.cleans then p.before.size - p.after.size else 0

/-- What a phase changes in the counts of a cache, together with what is still to be counted. -/
structure Balanced (p : Phase α) : Prop where
  lookups : p.after.tally.hits + p.after.tally.misses =
    p.before.tally.hits + p.before.tally.misses + p.endsLookup.toNat
  sets : p.after.tally.sets + ((goesOn p.start p.result).map fun u => u.2.owedSets).sum =
    p.before.tally.sets + p.stage.owedSets + p.stores.toNat
  deletes : p.after.tally.deletes + ((goesOn p.start p.result).map fun u => u.2.owedDeletes).sum =
    p.before.tally.deletes + p.stage.owedDeletes + p.deleted
  expirations : p.after.tally.expirations = p.before.tally.expirations + p.expired
  entries : p.before.size + p.stores.toNat = p.after.size + p.deleted + p.expired + p.replaces.toNat

/-- What is left after some entries are dropped, and their number. -/
private theorem size_add_dropped {c c' : Timed String α} (h : c'.entries.Sublist c.entries) :
    c.size = c'.size + (c.size - c'.size) :=
  (Nat.add_sub_cancel' h.length_le).symm

private theorem eq_add_sub_self (n m : Nat) : n = n + (m - m) := by rw [Nat.sub_self, Nat.add_zero]

theorem Lawful.balanced {settings : CacheSettings} {p : Phase α} (h : p.Lawful settings) : p.Balanced := by
  obtain ⟨start, moment, stage, before, result, after⟩ := p
  obtain ⟨hdistinct, hact⟩ := h
  dsimp only at hdistinct hact
  cases stage with
  | begun call =>
    cases call with
    | get key =>
      change (before.probe key start).map (Stage.afterProbe key) id = (result, after) at hact
      rcases before.probe_cases key start with ⟨-, h⟩ | ⟨e, -, -, h⟩ | ⟨e, -, -, h⟩ <;> rw [h] at hact <;> cases hact
      · exact ⟨rfl, rfl, rfl, eq_add_sub_self _ _, eq_add_sub_self _ _⟩
      · exact ⟨rfl, rfl, rfl, eq_add_sub_self _ _, eq_add_sub_self _ _⟩
      · exact ⟨Nat.add_right_comm _ _ _, rfl, rfl, eq_add_sub_self _ _, eq_add_sub_self _ _⟩
    | set key value ttl =>
      cases hact
      exact ⟨rfl, rfl, rfl, rfl, (Timed.size_insert hdistinct key (.lasting value ttl start)).symm⟩
    | setDefault key value =>
      cases hact
      exact ⟨rfl, rfl, rfl, rfl, (Timed.size_insert hdistinct key (.lasting value settings.defaultTtl start)).symm⟩
    | delete key =>
      rw [Stage.act_delete] at hact
      split at hact <;> cases hact
      · rename_i hsome
        have hsize := Timed.size_erase_of_find? hdistinct hsome
        refine ⟨rfl, rfl, ?_, rfl, size_add_dropped List.filter_sublist⟩
        show before.tally.deletes + 1 = before.tally.deletes + (before.size - (before.erase key).size)
        omega
      · exact ⟨rfl, rfl, eq_add_sub_self _ _, rfl, eq_add_sub_self _ _⟩
    | exists? key =>
      cases hact
      exact ⟨rfl, rfl, rfl, rfl, rfl⟩
    | deleteMatching pattern =>
      cases hact
      exact ⟨rfl, rfl, rfl, rfl, size_add_dropped List.filter_sublist⟩
    | sweep =>
      cases hact
      exact ⟨rfl, rfl, rfl, rfl, size_add_dropped List.filter_sublist⟩
  | evicting key =>
    change (.inl (.value none), before.evict key start) = (result, after) at hact
    rcases before.evict_cases key start with ⟨-, h⟩ | ⟨e, hk, -, h⟩ <;> rw [h] at hact <;> cases hact
    · exact ⟨rfl, rfl, rfl, eq_add_sub_self _ _, eq_add_sub_self _ _⟩
    · have hsize := Timed.size_erase_of_find? hdistinct (Option.isSome_of_eq_some hk)
      refine ⟨rfl, rfl, rfl, ?_, size_add_dropped List.filter_sublist⟩
      show before.tally.expirations + 1 = before.tally.expirations + (before.size - (before.erase key).size)
      omega
  | stored =>
    cases hact
    exact ⟨rfl, rfl, rfl, rfl, rfl⟩
  | deleted =>
    cases hact
    exact ⟨rfl, rfl, rfl, rfl, rfl⟩

end Phase

end Backlog.Cache
