import Backlog.Cache.Session
import Backlog.Proofs.Cache.Entries
import Mathlib.Data.List.Infix

/-!
# The calls of a cache

What callers ask of a cache of values of any type.  A call at a moment answers and leaves another cache.

Key facts:
* the commands of a session are these calls, at the moment that its clock shows (`Session.run_command`);
* a call changes what can be seen under a key only if it settles the key (`Call.live?_perform`);
* a lookup tells what can be seen (`Timed.get_fst`, `Timed.exists?_eq`).
-/

namespace Backlog.Cache

variable {α : Type}

/-- A text occurs within another just when it is an infix of it. -/
theorem occursIn_iff {pattern s : List Char} : occursIn pattern s = true ↔ pattern <:+: s := by
  induction s with
  | nil => simp [occursIn, List.isEmpty_iff]
  | cons c s ih => simp [occursIn, ih, List.infix_cons_iff]

/-- What can be asked of a cache. -/
inductive Call (α : Type) where
  | get (key : String)
  | set (key : String) (value : α) (ttl : Duration)
  | setDefault (key : String) (value : α)
  | delete (key : String)
  | exists? (key : String)
  | deleteMatching (pattern : String)
  | sweep
deriving DecidableEq

/-- What a call answers. -/
inductive Reply (α : Type) where
  | done
  | value (v : Option α)
  | flag (b : Bool)
  | count (n : Nat)
deriving DecidableEq

namespace Call

/-- What a call answers at a moment, and the cache that it leaves. -/
def perform (settings : CacheSettings) (c : Timed String α) (now : Instant) : Call α → Reply α × Timed String α
  | get key => ((c.get key now).map .value id)
  | set key value ttl => (.done, c.set key value ttl now)
  | setDefault key value => (.done, c.set key value settings.defaultTtl now)
  | delete key => (c.delete key).map .flag id
  | exists? key => (.flag (c.exists? key now), c)
  | deleteMatching pattern => (c.deleteWhere fun key => occursIn pattern.toList key.toList).map .count id
  | sweep => (c.sweep now).map .count id

/-- The command of a session that makes a call. -/
def command : Call String → Command
  | get key => .get key
  | set key value ttl => .set key value ttl
  | setDefault key value => .setDefault key value
  | delete key => .delete key
  | exists? key => .exists? key
  | deleteMatching pattern => .deleteMatching pattern
  | sweep => .sweep

end Call

/-- The answer of a session. -/
def Reply.answer : Reply String → Answer
  | done => .none
  | value v => v.elim .none .text
  | flag b => .flag b
  | count n => .count n

/-- A session makes a call at the moment that its clock shows. -/
theorem Session.run_command (s : Session) (call : Call String) :
    s.run call.command = ((call.perform s.settings s.cache s.now).1.answer,
      { s with cache := (call.perform s.settings s.cache s.now).2 }) := by
  cases call <;> rfl

namespace Call

/-! ### What a call leaves to be seen -/

/-- Whether a call settles what stands under a key, whatever was there before. -/
def settles (k : String) : Call α → Bool
  | set key _ _ => key = k
  | setDefault key _ => key = k
  | delete key => key = k
  | deleteMatching pattern => pattern.toList <:+: k.toList
  | get _ => false
  | exists? _ => false
  | sweep => false

/-- Lookups and sweeps, which settle no key. -/
def isPassive : Call α → Bool
  | get _ => true
  | exists? _ => true
  | sweep => true
  | _ => false

theorem settles_of_isPassive {call : Call α} (h : call.isPassive = true) (k : String) : call.settles k = false := by
  cases call <;> first | rfl | cases h

/-- What can be seen of a value that was stored at `s` for a span of time, for ever if the span is empty. -/
def stored (value : α) (ttl : Duration) (s now : Instant) : Option α :=
  if ttl = .zero ∨ now < s + ttl then some value else none

/-- What can be seen under a key that a call has settled at `s`. -/
def leaves (settings : CacheSettings) (s now : Instant) : Call α → Option α
  | set _ value ttl => stored value ttl s now
  | setDefault _ value => stored value settings.defaultTtl s now
  | _ => none

variable {settings : CacheSettings} {c : Timed String α} {s now : Instant}

theorem distinct_perform (h : c.Distinct) (settings : CacheSettings) (s : Instant) (call : Call α) :
    (call.perform settings c s).2.Distinct := by
  cases call with
  | get key =>
    show (c.get key s).2.Distinct
    rcases c.get_snd key s with hget | hget <;> rw [hget]
    · exact h.probe key s
    · exact (h.probe key s).evict key s
  | set key value ttl => exact h.insert key _
  | setDefault key value => exact h.insert key _
  | delete key => exact h.delete key
  | exists? key => exact h
  | deleteMatching pattern => exact h.sublist List.filter_sublist
  | sweep => exact h.sublist List.filter_sublist

private theorem live?_set (c : Timed String α) (key k : String) (value : α) (ttl : Duration) (s now : Instant) :
    (c.set key value ttl s).live? k now = if decide (key = k) then stored value ttl s now else c.live? k now := by
  unfold Timed.live?
  rw [Timed.find?_set]
  simp only [decide_eq_true_eq]
  by_cases hk : key = k
  · rw [if_pos hk, if_pos hk.symm, Option.filter_some]
    unfold stored
    by_cases hlive : ttl = .zero ∨ now < s + ttl
    · rw [if_pos hlive, Entry.isExpired_lasting_eq_false_iff.2 hlive]
      rfl
    · have hexpired : (Entry.lasting value ttl s).isExpired now = true :=
        Bool.not_eq_false _ ▸ mt Entry.isExpired_lasting_eq_false_iff.1 hlive
      rw [if_neg hlive, hexpired]
      rfl
  · rw [if_neg hk, if_neg (Ne.symm hk)]

/-- After a call a key shows what the call has settled, and any other key what it showed before. -/
theorem live?_perform (h : c.Distinct) (call : Call α) (later : s ≤ now) (k : String) :
    (call.perform settings c s).2.live? k now =
      if call.settles k then call.leaves settings s now else c.live? k now := by
  cases call with
  | get key =>
    refine Timed.live?_of_find? (s := s) ?_ later
    show (c.get key s).2.find? k = _ ∨ (c.get key s).2.find? k = _
    rcases c.get_snd key s with hget | hget <;> rw [hget]
    · exact .inl (c.find?_probe key k s)
    · rw [Timed.find?_evict, Timed.find?_probe]
      split
      · exact .inr rfl
      · exact .inl rfl
  | set key value ttl => exact live?_set c key k value ttl s now
  | setDefault key value => exact live?_set c key k value settings.defaultTtl s now
  | delete key =>
    show (c.delete key).2.live? k now = if decide (key = k) = true then none else c.live? k now
    unfold Timed.live?
    rw [Timed.find?_delete]
    by_cases hk : key = k
    · simp [hk]
    · simp [hk, Ne.symm hk]
  | exists? key => rfl
  | deleteMatching pattern =>
    show (c.deleteWhere fun key => occursIn pattern.toList key.toList).2.live? k now =
      if decide (pattern.toList <:+: k.toList) = true then none else c.live? k now
    unfold Timed.live?
    rw [Timed.find?_deleteWhere h]
    by_cases hk : pattern.toList <:+: k.toList
    · rw [if_pos (occursIn_iff.2 hk), if_pos (decide_eq_true hk)]
      rfl
    · rw [if_neg (mt occursIn_iff.1 hk), if_neg (by simpa using hk)]
  | sweep => exact Timed.live?_of_find? (.inr (Timed.find?_sweep h s k)) later

end Call

end Backlog.Cache
