import Backlog.Proofs.Cache.Phases

/-!
# The callers of a cache

Any number of callers use a cache at once.  Between two phases of a call others have theirs, the clock moves on, new
calls begin, and callers give up calls that wait.

Key facts:
* the phases of a run follow each other in time, and each of them is one of a call that has begun by then
  (`Crowd.Runs.chronicle`);
* the counts of a cache and the calls under way account for every phase of a run (`Crowd.Runs.accountedFor`);
* lookups and sweeps drop only what had expired when they began, and once no call is under way every entry that was ever
  stored is accounted for (`Crowd.accounts_of_runs`).
-/

namespace Backlog.Cache

variable {α : Type}

/-- A cache, its clock, and the calls under way, each with the moment at which it began. -/
structure Crowd (α : Type) where
  clock : Instant
  cache : Timed String α
  underway : List (Instant × Stage α)

namespace Crowd

/-- The states of a cache and its callers, with the phases that have led there from the empty cache. -/
inductive Runs (settings : CacheSettings) : List (Phase α) → Crowd α → Prop
  | start (clock : Instant) : Runs settings [] ⟨clock, .empty, []⟩
  /-- A call begins. -/
  | begin {log : List (Phase α)} {s : Crowd α} (call : Call α) :
    Runs settings log s → Runs settings log { s with underway := (s.clock, .begun call) :: s.underway }
  /-- Time passes. -/
  | tick {log : List (Phase α)} {s : Crowd α} (now : Instant) :
    Runs settings log s → s.clock ≤ now → Runs settings log { s with clock := now }
  /-- A call has its next phase. -/
  | act {log : List (Phase α)} {s : Crowd α} {start : Instant} {stage : Stage α} {result : Reply α ⊕ Stage α}
      {cache : Timed String α} (before after : List (Instant × Stage α)) :
    Runs settings log s → s.underway = before ++ (start, stage) :: after →
    stage.act settings start s.cache = (result, cache) →
    Runs settings (log ++ [⟨start, s.clock, stage, s.cache, result, cache⟩])
      { s with cache, underway := before ++ (goesOn start result ++ after) }
  /-- A caller gives up a call that waits for the cache. -/
  | drop {log : List (Phase α)} {s : Crowd α} {u : Instant × Stage α} (before after : List (Instant × Stage α)) :
    Runs settings log s → s.underway = before ++ u :: after → u.2.waits = true →
    Runs settings log { s with underway := before ++ after }

variable {settings : CacheSettings} {log : List (Phase α)} {s : Crowd α}

/-! ### Order in time -/

/-- Phases follow each other, and no call has begun later than now. -/
structure Chronicle (log : List (Phase α)) (s : Crowd α) : Prop where
  pairwise : log.Pairwise fun p q => p.moment ≤ q.moment
  past : ∀ p ∈ log, p.start ≤ p.moment ∧ p.moment ≤ s.clock
  begun : ∀ u ∈ s.underway, u.1 ≤ s.clock

theorem Runs.chronicle (h : Runs settings log s) : Chronicle log s := by
  induction h with
  | start clock => exact ⟨.nil, by simp, by simp⟩
  | begin call _ ih =>
    refine ⟨ih.pairwise, ih.past, fun u hu => ?_⟩
    rcases List.mem_cons.1 hu with rfl | hu
    · exact Nat.le_refl _
    · exact ih.begun u hu
  | tick now _ hnow ih =>
    exact ⟨ih.pairwise, fun p hp => ⟨(ih.past p hp).1, Nat.le_trans (ih.past p hp).2 hnow⟩,
      fun u hu => Nat.le_trans (ih.begun u hu) hnow⟩
  | @act log s start stage _ _ before after _ hunder _ ih =>
    obtain ⟨hpairwise, hpast, hbegun⟩ := ih
    rw [hunder] at hbegun
    have hstart : start ≤ s.clock := hbegun (start, stage) (by simp)
    refine ⟨?_, fun q hq => ?_, fun u hu => ?_⟩
    · refine List.pairwise_append.2 ⟨hpairwise, List.pairwise_singleton _ _, fun q hq q' hq' => ?_⟩
      rw [List.mem_singleton.1 hq']
      exact (hpast q hq).2
    · rcases List.mem_append.1 hq with hq | hq
      · exact hpast q hq
      · rw [List.mem_singleton.1 hq]
        exact ⟨hstart, Nat.le_refl _⟩
    · rcases List.mem_append.1 hu with hu | hu
      · exact hbegun u (by simp [hu])
      · rcases List.mem_append.1 hu with hu | hu
        · rw [fst_of_mem_goesOn hu]
          exact hstart
        · exact hbegun u (by simp [hu])
  | @drop log s u before after _ hunder _ ih =>
    obtain ⟨hpairwise, hpast, hbegun⟩ := ih
    rw [hunder] at hbegun
    refine ⟨hpairwise, hpast, fun v hv => hbegun v ?_⟩
    rcases List.mem_append.1 hv with hv | hv <;> simp [hv]

/-! ### What the phases do -/

theorem Runs.lawful (h : Runs settings log s) : s.cache.Distinct ∧ ∀ p ∈ log, p.Lawful settings := by
  induction h with
  | start clock => exact ⟨Timed.distinct_empty, by simp⟩
  | begin call _ ih => exact ih
  | tick _ _ _ ih => exact ih
  | @act log s start stage result cache _ _ _ _ hact ih =>
    obtain ⟨hdistinct, hlog⟩ := ih
    have hp : Phase.Lawful settings ⟨start, s.clock, stage, s.cache, result, cache⟩ := ⟨hdistinct, hact⟩
    refine ⟨hp.distinct_after, fun q hq => ?_⟩
    rcases List.mem_append.1 hq with hq | hq
    · exact hlog q hq
    · rw [List.mem_singleton.1 hq]
      exact hp
  | drop _ _ _ _ _ ih => exact ih

/-- What has been counted, and what is still to be counted, is what the phases have done. -/
structure Accounted (log : List (Phase α)) (s : Crowd α) : Prop where
  lookups : s.cache.tally.hits + s.cache.tally.misses = log.countP Phase.endsLookup
  sets : s.cache.tally.sets + (s.underway.map fun u => u.2.owedSets).sum = log.countP Phase.stores
  deletes : s.cache.tally.deletes + (s.underway.map fun u => u.2.owedDeletes).sum = (log.map Phase.deleted).sum
  expirations : s.cache.tally.expirations = (log.map Phase.expired).sum
  entries : log.countP Phase.stores =
    s.cache.size + (log.map Phase.deleted).sum + (log.map Phase.expired).sum + log.countP Phase.replaces

private theorem countP_concat (f : Phase α → Bool) (log : List (Phase α)) (p : Phase α) :
    (log ++ [p]).countP f = log.countP f + (f p).toNat := by
  rw [List.countP_append, List.countP_singleton]
  cases f p <;> rfl

private theorem sum_map_concat (f : Phase α → Nat) (log : List (Phase α)) (p : Phase α) :
    ((log ++ [p]).map f).sum = (log.map f).sum + f p := by simp

theorem Runs.accountedFor (h : Runs settings log s) : Accounted log s := by
  induction h with
  | start clock => exact ⟨rfl, rfl, rfl, rfl, rfl⟩
  | begin call _ ih =>
    obtain ⟨hlookups, hsets, hdeletes, hexpirations, hentries⟩ := ih
    refine ⟨hlookups, ?_, ?_, hexpirations, hentries⟩
    · rw [List.map_cons, List.sum_cons, ← hsets]
      exact congrArg _ (Nat.zero_add _)
    · rw [List.map_cons, List.sum_cons, ← hdeletes]
      exact congrArg _ (Nat.zero_add _)
  | tick _ _ _ ih => exact ⟨ih.lookups, ih.sets, ih.deletes, ih.expirations, ih.entries⟩
  | @act log s start stage result cache before after hruns hunder hact ih =>
    have hp : Phase.Lawful settings ⟨start, s.clock, stage, s.cache, result, cache⟩ := ⟨hruns.lawful.1, hact⟩
    obtain ⟨hlookups, hsets, hdeletes, hexpirations, hentries⟩ := hp.balanced
    obtain ⟨ihlookups, ihsets, ihdeletes, ihexpirations, ihentries⟩ := ih
    rw [hunder, List.map_append, List.map_cons, List.sum_append, List.sum_cons] at ihsets ihdeletes
    dsimp only at hlookups hsets hdeletes hexpirations hentries ihsets ihdeletes
    refine ⟨?_, ?_, ?_, ?_, ?_⟩
    · rw [countP_concat]
      dsimp only
      omega
    · rw [countP_concat, List.map_append, List.map_append, List.sum_append, List.sum_append]
      dsimp only
      omega
    · rw [sum_map_concat, List.map_append, List.map_append, List.sum_append, List.sum_append]
      dsimp only
      omega
    · rw [sum_map_concat]
      dsimp only
      omega
    · rw [countP_concat, sum_map_concat, sum_map_concat, countP_concat]
      dsimp only
      omega
  | @drop log s u before after _ hunder hwaits ih =>
    obtain ⟨hlookups, hsets, hdeletes, hexpirations, hentries⟩ := ih
    obtain ⟨hnoset, hnodelete⟩ := Stage.owed_of_waits hwaits
    rw [hunder, List.map_append, List.map_cons, List.sum_append, List.sum_cons] at hsets hdeletes
    refine ⟨hlookups, ?_, ?_, hexpirations, hentries⟩
    · rw [List.map_append, List.sum_append]
      dsimp only
      omega
    · rw [List.map_append, List.sum_append]
      dsimp only
      omega

/-! ### Safe removal and complete accounts -/

/-- A lookup has met an expired entry in a first phase, another call stores an entry under the key, and the lookup has
its second phase. -/
structure Overtaken (log : List (Phase α)) (key : String) (look store evict : Phase α) : Prop where
  order : [look, store, evict].Sublist log
  looks : look.stage = .begun (.get key)
  stores : store.stage.target? = some key
  evicts : evict.stage = .evicting key
  start : evict.start = look.start

/-- What has been stored in the meantime had not expired when the lookup began. -/
theorem Overtaken.isExpired_start {key : String} {look store evict : Phase α}
    (hover : Overtaken log key look store evict) (h : Runs settings log s) {e : Entry α}
    (hstored : store.after.find? key = some e)
    (hfresh : e.isExpired store.moment = false ∨ look.start ≤ store.start) : e.isExpired evict.start = false := by
  rw [hover.start]
  rcases hfresh with hfresh | hlater
  · -- the lookup had begun by its first phase, and the entry was stored after that
    have hlook : look.start ≤ look.moment := (h.chronicle.past look (hover.order.subset (by simp))).1
    have hstore : look.moment ≤ store.moment :=
      (List.pairwise_cons.1 (h.chronicle.pairwise.sublist hover.order)).1 store (by simp)
    refine Bool.eq_false_iff.2 fun hexpired => ?_
    have hlate := Entry.isExpired_mono hexpired (Nat.le_trans hlook hstore)
    rw [hfresh] at hlate
    cases hlate
  · have hact := (h.lawful.2 store (hover.order.subset (by simp))).act
    exact Stage.isExpired_of_target? hover.stores (by rw [hact]; exact hstored) hlater

/-- **Main theorem.** However the phases of calls follow each other, lookups and sweeps drop only entries that had
expired when they began.  So a lookup does not drop what was stored between its two phases, unless a call stored it that
had begun before the lookup and came too late.  And once no call is under way, every lookup is counted as a hit or a
miss, and every entry ever stored is still there, is counted once as deleted or expired, or was replaced. -/
theorem accounts_of_runs (h : Runs settings log s) :
    (∀ p ∈ log, p.stage.cleans = true → ∀ k e, p.before.find? k = some e → p.after.find? k ≠ some e →
      p.after.find? k = none ∧ e.isExpired p.start = true) ∧
    (∀ key look store evict, Overtaken log key look store evict → ∀ e, store.after.find? key = some e →
      e.isExpired store.moment = false ∨ look.start ≤ store.start →
      evict.before.find? key = some e → evict.after.find? key = some e) ∧
    (s.underway = [] →
      s.cache.tally.hits + s.cache.tally.misses = log.countP Phase.endsLookup ∧
      s.cache.tally.sets =
        s.cache.size + s.cache.tally.deletes + s.cache.tally.expirations + log.countP Phase.replaces ∧
      s.cache.tally.deletes = (log.map Phase.deleted).sum ∧
      s.cache.tally.expirations = (log.map Phase.expired).sum) := by
  obtain ⟨-, hlawful⟩ := h.lawful
  refine ⟨fun p hp hcleans k e hbefore hafter => (hlawful p hp).isExpired_of_cleans hcleans hbefore hafter,
    fun key look store evict hover e hstored hfresh hthere => ?_, fun hidle => ?_⟩
  · have hlive : e.isExpired evict.start = false := hover.isExpired_start h hstored hfresh
    refine Classical.byContradiction fun hgone => ?_
    have hevict : evict ∈ log := hover.order.subset (by simp)
    have hcleans : evict.stage.cleans = true := by
      rw [hover.evicts]
      rfl
    have hexpired := ((hlawful evict hevict).isExpired_of_cleans hcleans hthere hgone).2
    rw [hlive] at hexpired
    cases hexpired
  · obtain ⟨hlookups, hsets, hdeletes, hexpirations, hentries⟩ := h.accountedFor
    rw [hidle] at hsets hdeletes
    refine ⟨hlookups, ?_, hdeletes, hexpirations⟩
    simp only [List.map_nil, List.sum_nil, Nat.add_zero] at hsets hdeletes
    omega

theorem accounts_of_runs_refreshed :
    ∃ (log : List (Phase Nat)) (s : Crowd Nat), Runs .standard log s ∧ s.underway = [] ∧
      s.cache.live? "a" s.clock = some 2 ∧
      log.countP Phase.endsLookup = 1 ∧ log.countP Phase.replaces = 1 ∧
      s.cache.tally.hits + s.cache.tally.misses = 1 ∧
      s.cache.tally.sets = s.cache.size + s.cache.tally.deletes + s.cache.tally.expirations + 1 := by
  have hempty : Runs .standard [] (⟨⟨0⟩, .empty, []⟩ : Crowd Nat) := .start ⟨0⟩
  -- a value is stored, and its time passes
  have hbegun := hempty.begin (.set "a" 1 ⟨5⟩)
  have hcounted := (hbegun.act [] [] rfl rfl).act [] [] rfl rfl
  have hlate := hcounted.tick ⟨10⟩ (by decide)
  -- a lookup meets the expired value, another value is stored, and the lookup ends
  have hlooked := ((hlate.begin (.set "a" 2 ⟨5⟩)).begin (.get "a")).act [] _ rfl rfl
  have hrefreshed := hlooked.act [_] [] rfl rfl
  have hended := (hrefreshed.act [] _ rfl rfl).act [] [] rfl rfl
  obtain ⟨hlookups, hsets, -, -⟩ := (accounts_of_runs hended).2.2 rfl
  exact ⟨_, _, hended, rfl, rfl, rfl, rfl, hlookups, hsets⟩

end Crowd

end Backlog.Cache
