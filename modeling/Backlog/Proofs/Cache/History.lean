import Mathlib.Data.List.Induction
import Backlog.Proofs.Cache.Calls

/-!
# What a cache shows follows from its history

Expired entries stay in a cache until a lookup, a deletion or a sweep drops them.  Nobody can tell: lookups are
answered as by a map that remembers every call and drops nothing.

Key facts:
* the last call that settled a key decides what can be seen there (`History.live?_outcome`);
* the answers to lookups follow from the history, in which lookups and sweeps are of no account
  (`History.lookups_of_outcome`).
-/

namespace Backlog.Cache

/-- Calls made one after the other, the earliest first, each with its moment. -/
abbrev History (α : Type) := List (Instant × Call α)

namespace History

variable {α : Type}

/-- The moments of the calls are in order, and none of them is after a later moment. -/
structure InOrder (history : History α) (now : Instant) : Prop where
  pairwise : history.Pairwise fun a b => a.1 ≤ b.1
  upTo : ∀ e ∈ history, e.1 ≤ now

/-- The cache that the calls have made of an empty one. -/
def outcome (settings : CacheSettings) (history : History α) : Timed String α :=
  history.foldl (fun c e => (e.2.perform settings c e.1).2) .empty

/-- What the last call that settled a key leaves to be seen there. -/
def recalled (settings : CacheSettings) (history : History α) (k : String) (now : Instant) : Option α :=
  (history.filter fun e => e.2.settles k).getLast?.bind fun e => e.2.leaves settings e.1 now

/-- The calls other than lookups and sweeps. -/
def active (history : History α) : History α := history.filter fun e => !e.2.isPassive

variable {settings : CacheSettings} {history : History α} {now : Instant}

theorem outcome_concat (settings : CacheSettings) (history : History α) (e : Instant × Call α) :
    outcome settings (history ++ [e]) = (e.2.perform settings (outcome settings history) e.1).2 :=
  List.foldl_append

theorem recalled_concat (settings : CacheSettings) (history : History α) (e : Instant × Call α) (k : String)
    (now : Instant) : recalled settings (history ++ [e]) k now =
      if e.2.settles k then e.2.leaves settings e.1 now else recalled settings history k now := by
  unfold recalled
  rw [List.filter_append]
  cases hk : e.2.settles k
  · rw [List.filter_cons_of_neg (by simp [hk]), List.filter_nil, List.append_nil]
    rfl
  · rw [List.filter_cons_of_pos (by simpa using hk), List.filter_nil, List.getLast?_concat]
    rfl

/-- Lookups and sweeps leave nothing to be recalled. -/
theorem recalled_active (settings : CacheSettings) (history : History α) (k : String) (now : Instant) :
    recalled settings (active history) k now = recalled settings history k now := by
  have hsettling : (active history).filter (fun e => e.2.settles k) = history.filter fun e => e.2.settles k := by
    unfold active
    rw [List.filter_filter]
    congr 1
    funext e
    cases hpassive : e.2.isPassive
    · exact Bool.and_true _
    · rw [Call.settles_of_isPassive hpassive k]
      rfl
  unfold recalled
  rw [hsettling]

theorem distinct_outcome (settings : CacheSettings) (history : History α) : (outcome settings history).Distinct := by
  induction history using List.reverseRecOn with
  | nil => exact Timed.distinct_empty
  | append_singleton history e ih =>
    rw [outcome_concat]
    exact Call.distinct_perform ih settings e.1 e.2

/-- What can be seen in a cache is what is recalled of its history. -/
theorem live?_outcome (h : InOrder history now) (k : String) :
    (outcome settings history).live? k now = recalled settings history k now := by
  induction history using List.reverseRecOn with
  | nil => rfl
  | append_singleton history e ih =>
    have hlater : e.1 ≤ now := h.upTo e (by simp)
    have hbefore : InOrder history now :=
      ⟨(List.pairwise_append.1 h.pairwise).1, fun x hx => h.upTo x (List.mem_append_left _ hx)⟩
    rw [outcome_concat, recalled_concat, Call.live?_perform (distinct_outcome settings history) e.2 hlater, ih hbefore]

/-- **Main theorem.** Lookups after any calls, made in order, are answered from the history: with the value that the
last call that settled the key had stored there, if its time is not up.  With other lookups and sweeps among the calls,
and with none, the answers are the same. -/
theorem lookups_of_outcome (settings : CacheSettings) (h : InOrder history now) (k : String) :
    ((Call.get k).perform settings (outcome settings history) now).1 = .value (recalled settings history k now) ∧
    ((Call.exists? k).perform settings (outcome settings history) now).1 =
      .flag (recalled settings history k now).isSome ∧
    ∀ other : History α, InOrder other now → active other = active history →
      ((Call.get k).perform settings (outcome settings other) now).1 =
        ((Call.get k).perform settings (outcome settings history) now).1 ∧
      ((Call.exists? k).perform settings (outcome settings other) now).1 =
        ((Call.exists? k).perform settings (outcome settings history) now).1 := by
  have hget (calls : History α) (hcalls : InOrder calls now) :
      ((Call.get k).perform settings (outcome settings calls) now).1 = .value (recalled settings calls k now) := by
    rw [← live?_outcome hcalls k, ← Timed.get_fst]
    rfl
  have hexists (calls : History α) (hcalls : InOrder calls now) :
      ((Call.exists? k).perform settings (outcome settings calls) now).1 =
        .flag (recalled settings calls k now).isSome := by
    rw [← live?_outcome hcalls k, ← Timed.exists?_eq]
    rfl
  refine ⟨hget history h, hexists history h, fun other hother hsame => ?_⟩
  have hrecalled : recalled settings other k now = recalled settings history k now := by
    rw [← recalled_active, hsame, recalled_active]
  constructor
  · rw [hget other hother, hget history h, hrecalled]
  · rw [hexists other hother, hexists history h, hrecalled]

/-- A value is stored for ten nanoseconds, and another for the standard time until it is dropped. -/
def shortStay : History Nat :=
  [(⟨0⟩, .set "a" 1 ⟨10⟩), (⟨3⟩, .setDefault "ab" 2), (⟨5⟩, .sweep), (⟨5⟩, .get "ab"), (⟨7⟩, .deleteMatching "b")]

theorem lookups_of_outcome_shortStay :
    InOrder shortStay ⟨9⟩ ∧
    ((Call.get "a").perform .standard (outcome .standard shortStay) ⟨9⟩).1 = .value (some 1) ∧
    ((Call.exists? "ab").perform .standard (outcome .standard shortStay) ⟨9⟩).1 = .flag false ∧
    ((Call.get "a").perform .standard (outcome .standard (active shortStay)) ⟨9⟩).1 =
      ((Call.get "a").perform .standard (outcome .standard shortStay) ⟨9⟩).1 := by
  have h : InOrder shortStay ⟨9⟩ := ⟨by decide, by decide⟩
  have hactive : InOrder (active shortStay) ⟨9⟩ := ⟨by decide, by decide⟩
  refine ⟨h, ?_, ?_, ?_⟩
  · rw [(lookups_of_outcome .standard h "a").1]
    rfl
  · rw [(lookups_of_outcome .standard h "ab").2.1]
    rfl
  · exact ((lookups_of_outcome .standard h "a").2.2 _ hactive rfl).1

end History

end Backlog.Cache
