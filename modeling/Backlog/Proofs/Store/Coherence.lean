import Backlog.Proofs.Store.Copies
import Mathlib.Logic.Relation

/-!
# The shelf agrees with the store

Any number of reads and writes are under way at a store behind a shelf, and they act by turns, each by one part of its
work at a time.  A read looks at the shelf, notes the epoch, asks the store and keeps a copy of the answer; a write
throws copies away, makes its call, and throws copies away once more, whether its caller still waits for it or not.
The rise of the epoch and the dropping of copies are one stretch of work under a lock, under which alone the epoch is
noted and copies are kept.  Whoever goes by the clock has read it before it gets at the copies, a read when it begins.
Calls of the store may fail with or without effect, time passes and sweepers run at any moment.

Key facts:
* a copy on the shelf is what the store says, unless a write that throws such copies away is between its two times of
  doing so (`Traffic.Coherent`, kept by every step in `Coherent.step`);
* what a reader has got is what the store says, unless the epoch has risen since or such a write is under way
  (`Traffic.Trusts`);
* so a read that runs while no write is under way gives what the store says (`Reachable.shelf_agrees_with_store`).
-/

namespace Backlog.Store

open Cache

/-- How far a read through the shelf has come. -/
inductive Reading (r : Request) where
  /-- It has read the clock and is about to look at the shelf. -/
  | looking (begun : Instant)
  /-- It has met a copy whose time was up when the read began. -/
  | evicting (begun : Instant)
  /-- There was no live copy, and it is about to note the epoch. -/
  | dating
  | asking (seen : Nat)
  /-- It has the answer and is about to keep a copy if the epoch is still the same. -/
  | keeping (seen : Nat) (answer : r.Answer)
  | answered (answer : r.Answer)
  /-- The call of the store has failed, and the read with it. -/
  | failed (outcome : Outcome r.Answer)

/-- A read and how far it has come. -/
structure Reader where
  request : Request
  stage : Reading request

/-- What is to be dropped next, under the lock. -/
inductive Clearing where
  | task
  | listing
deriving DecidableEq

/-- How far a write behind the shelf has come. -/
inductive Writing where
  | waiting
  /-- It holds the lock and throws copies away, for the first time or again. -/
  | clearing (again : Bool) (part : Clearing)
  | cleared
  /-- Its call has ended. -/
  | called
  | ended
deriving DecidableEq

namespace Writing

/-- Where a write stands when it is about to throw copies away. -/
def entry (again : Bool) : Writing := if again then called else waiting

/-- Where a write stands when it has thrown copies away. -/
def exit (again : Bool) : Writing := if again then ended else cleared

/-- Whether a write has thrown copies away once, but is not through with it for the second time. -/
def isBetween : Writing → Bool
  | clearing again _ => again
  | cleared => true
  | called => true
  | _ => false

/-- Whether a write holds the lock. -/
def isClearing : Writing → Bool
  | clearing _ _ => true
  | _ => false

end Writing

/-- A write and how far it has come. -/
structure Writer where
  request : Request
  stage : Writing

/-- A store behind a shelf with all that is under way there. -/
structure Traffic where
  store : Backend
  shelf : Shelf
  now : Instant
  /-- The write that holds the lock on the epoch. -/
  lock : Option Nat
  readers : Nat → Option Reader
  writers : Nat → Option Writer

namespace Traffic

/-- A store before anybody has asked for anything. -/
def start (b : Backend) : Traffic := ⟨b, .empty, .zero, none, fun _ => none, fun _ => none⟩

/-- The read with a number comes to a new stage. -/
def setReader (t : Traffic) (i : Nat) (x : Reader) : Traffic :=
  { t with readers := fun k => if k = i then some x else t.readers k }

/-- The write with a number comes to a new stage. -/
def setWriter (t : Traffic) (j : Nat) (w : Writer) : Traffic :=
  { t with writers := fun k => if k = j then some w else t.writers k }

/-- One part of the work of somebody. -/
inductive Step : Traffic → Traffic → Prop where
  | pass {t} (span : Duration) : Step t { t with now := t.now + span }
  /-- A sweeper has read the clock, and drops what was due then. -/
  | sweepTasks {t} (read : Instant) (past : read ≤ t.now) :
    Step t { t with shelf := { t.shelf with tasks := (t.shelf.tasks.sweep read).2 } }
  | sweepListing {t} (read : Instant) (past : read ≤ t.now) :
    Step t { t with shelf := { t.shelf with listing := (t.shelf.listing.sweep read).2 } }
  | readTask {t i} (id : Int) (free : t.readers i = none) : Step t (t.setReader i ⟨.get id, .looking t.now⟩)
  | readListing {t i} (free : t.readers i = none) : Step t (t.setReader i ⟨.list, .looking t.now⟩)
  | hit {t i r begun a s} (stage : t.readers i = some ⟨r, .looking begun⟩)
      (probe : t.shelf.probe begun r = (.hit a, s)) : Step t ({ t with shelf := s }.setReader i ⟨r, .answered a⟩)
  | miss {t i r begun s} (stage : t.readers i = some ⟨r, .looking begun⟩)
      (probe : t.shelf.probe begun r = (.absent, s)) : Step t ({ t with shelf := s }.setReader i ⟨r, .dating⟩)
  | meetExpired {t i r begun s} (stage : t.readers i = some ⟨r, .looking begun⟩)
      (probe : t.shelf.probe begun r = (.expired, s)) :
    Step t ({ t with shelf := s }.setReader i ⟨r, .evicting begun⟩)
  | evict {t i r begun} (stage : t.readers i = some ⟨r, .evicting begun⟩) :
    Step t ({ t with shelf := t.shelf.evict begun r }.setReader i ⟨r, .dating⟩)
  | date {t i r} (stage : t.readers i = some ⟨r, .dating⟩) (free : t.lock = none) :
    Step t (t.setReader i ⟨r, .asking t.shelf.epoch⟩)
  | ask {t i r seen a} (stage : t.readers i = some ⟨r, .asking seen⟩) (wall : Timestamp)
      (answer : (t.store.perform wall r).1 = .ok a) :
    Step t ({ t with store := (t.store.perform wall r).2 }.setReader i
      ⟨r, if Copy.isKept ⟨r, a⟩ then .keeping seen a else .answered a⟩)
  | askInVain {t i r seen} (stage : t.readers i = some ⟨r, .asking seen⟩) (wall : Timestamp) {o : Outcome r.Answer}
      (failure : o = (t.store.perform wall r).1 ∨ ∃ e, o = .error e) (notOk : ∀ a, o ≠ .ok a) :
    Step t (t.setReader i ⟨r, .failed o⟩)
  /-- The reader has read the clock, and keeps its answer under the lock if the epoch is still the same. -/
  | keep {t i r seen a} (stage : t.readers i = some ⟨r, .keeping seen a⟩) (free : t.lock = none) (read : Instant)
      (past : read ≤ t.now) : Step t ({ t with shelf := t.shelf.keep read seen r a }.setReader i ⟨r, .answered a⟩)
  | write {t j} (r : Request) (isWrite : r.isWrite = true) (free : t.writers j = none) :
    Step t (t.setWriter j ⟨r, .waiting⟩)
  | raise {t j r} (again : Bool) (stage : t.writers j = some ⟨r, .entry again⟩) (free : t.lock = none) :
    Step t ({ t with shelf := t.shelf.raise, lock := some j }.setWriter j ⟨r, .clearing again .task⟩)
  | dropTask {t j r again} (stage : t.writers j = some ⟨r, .clearing again .task⟩) :
    Step t ({ t with shelf := t.shelf.dropTask r.id? }.setWriter j ⟨r, .clearing again .listing⟩)
  | dropListing {t j r again} (stage : t.writers j = some ⟨r, .clearing again .listing⟩) :
    Step t ({ t with shelf := t.shelf.dropListing, lock := none }.setWriter j ⟨r, .exit again⟩)
  /-- The call of a write takes effect; it may end with an error all the same, but does not break down. -/
  | carryOut {t j r} (stage : t.writers j = some ⟨r, .cleared⟩) (wall : Timestamp)
      (ends : ∃ result, (t.store.perform wall r).1 = .answered result) :
    Step t ({ t with store := (t.store.perform wall r).2 }.setWriter j ⟨r, .called⟩)
  /-- The call of a write fails without effect. -/
  | refuse {t j r} (stage : t.writers j = some ⟨r, .cleared⟩) : Step t (t.setWriter j ⟨r, .called⟩)

/-- What can come of a store by such steps. -/
inductive Reachable (b : Backend) : Traffic → Prop where
  | start : Reachable b (.start b)
  | step {t t'} (h : Reachable b t) (s : Step t t') : Reachable b t'

/-- Some write that throws copies of answers to a request away is between its two times of doing so. -/
def Unsettled (t : Traffic) (r : Request) : Prop :=
  ∃ j w, t.writers j = some w ∧ w.stage.isBetween = true ∧ w.request.Unsettles r

/-- No write is between its two times of throwing copies away. -/
def Quiet (t : Traffic) : Prop := ∀ j w, t.writers j = some w → w.stage.isBetween = false

/-- Steps during which no write is between its two times of throwing copies away. -/
inductive QuietRun : Traffic → Traffic → Prop where
  | refl {t} (quiet : t.Quiet) : QuietRun t t
  | step {t t' t''} (h : QuietRun t t') (s : Step t' t'') (quiet : t''.Quiet) : QuietRun t t''

/-! ### The operations of the shelf, undisturbed -/

variable {t : Traffic}

private theorem setReader_setReader (t : Traffic) (i : Nat) (x y : Reader) :
    (t.setReader i x).setReader i y = t.setReader i y := by
  simp only [setReader]
  congr 1
  funext k
  split <;> rfl

private theorem setWriter_setWriter (t : Traffic) (j : Nat) (v w : Writer) :
    (t.setWriter j v).setWriter j w = t.setWriter j w := by
  simp only [setWriter]
  congr 1
  funext k
  split <;> rfl

private theorem readers_setReader (t : Traffic) (i : Nat) (x : Reader) : (t.setReader i x).readers i = some x :=
  if_pos rfl

private theorem writers_setWriter (t : Traffic) (j : Nat) (w : Writer) : (t.setWriter j w).writers j = some w :=
  if_pos rfl

/-- A look at the shelf that finds a copy. -/
theorem steps_find? {i : Nat} {r : Request} {begun : Instant} {a : r.Answer} {s : Shelf}
    (stage : t.readers i = some ⟨r, .looking begun⟩) (found : t.shelf.find? begun r = (some a, s)) :
    Relation.ReflTransGen Step t ({ t with shelf := s }.setReader i ⟨r, .answered a⟩) := by
  rw [Shelf.find?_eq] at found
  split at found
  · rename_i hp
    cases found
    exact .single (.hit stage hp)
  · cases found
  · cases found

/-- A look at the shelf that finds no copy. -/
theorem steps_find?_none {i : Nat} {r : Request} {begun : Instant} {s : Shelf}
    (stage : t.readers i = some ⟨r, .looking begun⟩) (missed : t.shelf.find? begun r = (none, s)) :
    Relation.ReflTransGen Step t ({ t with shelf := s }.setReader i ⟨r, .dating⟩) := by
  rw [Shelf.find?_eq] at missed
  split at missed
  · cases missed
  · rename_i hp
    cases missed
    exact .single (.miss stage hp)
  · rename_i s' hp
    cases missed
    have hevict : Step ({ t with shelf := s' }.setReader i ⟨r, .evicting begun⟩)
        (({ t with shelf := s'.evict begun r }.setReader i ⟨r, .evicting begun⟩).setReader i ⟨r, .dating⟩) :=
      .evict (readers_setReader _ i _)
    rw [setReader_setReader] at hevict
    exact .tail (.single (.meetExpired stage hp)) hevict

/-- A read that has found no copy asks the store and keeps a copy of the answer. -/
theorem steps_keep {i : Nat} {r : Request} {a : r.Answer} (stage : t.readers i = some ⟨r, .dating⟩)
    (free : t.lock = none) (hr : r.isWrite = false) (wall : Timestamp) (answer : (t.store.perform wall r).1 = .ok a)
    (kept : Copy.isKept ⟨r, a⟩ = true) :
    Relation.ReflTransGen Step t
      ({ t with shelf := t.shelf.keep t.now t.shelf.epoch r a }.setReader i ⟨r, .answered a⟩) := by
  have hask : Step (t.setReader i ⟨r, .asking t.shelf.epoch⟩)
      (({ t with store := (t.store.perform wall r).2 }.setReader i ⟨r, .asking t.shelf.epoch⟩).setReader i
        ⟨r, if Copy.isKept ⟨r, a⟩ then .keeping t.shelf.epoch a else .answered a⟩) :=
    .ask (readers_setReader t i _) wall answer
  rw [setReader_setReader, if_pos kept, t.store.perform_of_not_isWrite hr wall wall] at hask
  have hkeep : Step (t.setReader i ⟨r, .keeping t.shelf.epoch a⟩)
      (({ t with shelf := t.shelf.keep t.now t.shelf.epoch r a }.setReader i ⟨r, .keeping t.shelf.epoch a⟩).setReader i
        ⟨r, .answered a⟩) := .keep (readers_setReader t i _) free t.now (Nat.le_refl _)
  rw [setReader_setReader] at hkeep
  exact ((Relation.ReflTransGen.single (.date stage free)).tail hask).tail hkeep

/-- A write that throws copies away, for the first time or again. -/
theorem steps_invalidate {j : Nat} {r : Request} (again : Bool) (stage : t.writers j = some ⟨r, .entry again⟩)
    (free : t.lock = none) :
    Relation.ReflTransGen Step t
      ({ t with shelf := t.shelf.invalidate r.id? }.setWriter j ⟨r, .exit again⟩) := by
  have htask : Step ({ t with shelf := t.shelf.raise, lock := some j }.setWriter j ⟨r, .clearing again .task⟩)
      (({ t with shelf := t.shelf.raise.dropTask r.id?, lock := some j }.setWriter j
        ⟨r, .clearing again .task⟩).setWriter j ⟨r, .clearing again .listing⟩) :=
    .dropTask (writers_setWriter _ j _)
  have hlisting : Step
      ({ t with shelf := t.shelf.raise.dropTask r.id?, lock := some j }.setWriter j ⟨r, .clearing again .listing⟩)
      (({ t with shelf := t.shelf.invalidate r.id?, lock := none }.setWriter j ⟨r, .clearing again .listing⟩).setWriter
        j ⟨r, .exit again⟩) := by
    rw [Shelf.invalidate_eq]
    exact .dropListing (writers_setWriter _ j _)
  rw [setWriter_setWriter] at htask hlisting
  rw [← free] at hlisting
  exact ((Relation.ReflTransGen.single (.raise again stage free)).tail htask).tail hlisting

/-- A read that finds no copy, and that nobody disturbs, puts a copy of what the store says on the shelf. -/
theorem steps_read {i : Nat} {r : Request} {a : r.Answer} {s : Shelf}
    (begins : Step t (t.setReader i ⟨r, .looking t.now⟩)) (missed : t.shelf.find? t.now r = (none, s))
    (free : t.lock = none) (hr : r.isWrite = false) (wall : Timestamp) (answer : (t.store.perform wall r).1 = .ok a)
    (kept : Copy.isKept ⟨r, a⟩ = true) :
    Relation.ReflTransGen Step t ({ t with shelf := s.keep t.now s.epoch r a }.setReader i ⟨r, .answered a⟩) := by
  have hlook : Relation.ReflTransGen Step (t.setReader i ⟨r, .looking t.now⟩)
      (({ t with shelf := s }.setReader i ⟨r, .looking t.now⟩).setReader i ⟨r, .dating⟩) :=
    steps_find?_none (readers_setReader t i _) missed
  have hkeep : Relation.ReflTransGen Step ({ t with shelf := s }.setReader i ⟨r, .dating⟩)
      (({ t with shelf := s.keep t.now s.epoch r a }.setReader i ⟨r, .dating⟩).setReader i ⟨r, .answered a⟩) :=
    steps_keep (readers_setReader _ i _) free hr wall answer kept
  rw [setReader_setReader] at hlook hkeep
  exact ((Relation.ReflTransGen.single begins).trans hlook).trans hkeep

/-- A write that nobody disturbs throws copies away, takes effect, and throws copies away again. -/
theorem steps_write {j : Nat} {r : Request} {result : Except StoreError r.Answer} (free : t.writers j = none)
    (unlocked : t.lock = none) (isWrite : r.isWrite = true) (wall : Timestamp)
    (answer : (t.store.perform wall r).1 = .answered result) :
    Relation.ReflTransGen Step t ({ t with
      store := (t.store.perform wall r).2, shelf := (t.shelf.invalidate r.id?).invalidate r.id? }.setWriter j
        ⟨r, .ended⟩) := by
  have hfirst : Relation.ReflTransGen Step (t.setWriter j ⟨r, .waiting⟩)
      (({ t with shelf := t.shelf.invalidate r.id? }.setWriter j ⟨r, .waiting⟩).setWriter j ⟨r, .cleared⟩) :=
    steps_invalidate false (writers_setWriter t j _) unlocked
  have hcall : Step ({ t with shelf := t.shelf.invalidate r.id? }.setWriter j ⟨r, .cleared⟩)
      (({ t with store := (t.store.perform wall r).2, shelf := t.shelf.invalidate r.id? }.setWriter j
        ⟨r, .cleared⟩).setWriter j ⟨r, .called⟩) :=
    .carryOut (writers_setWriter _ j _) wall ⟨result, answer⟩
  have hagain : Relation.ReflTransGen Step
      ({ t with store := (t.store.perform wall r).2, shelf := t.shelf.invalidate r.id? }.setWriter j ⟨r, .called⟩)
      (({ t with store := (t.store.perform wall r).2,
                 shelf := (t.shelf.invalidate r.id?).invalidate r.id? }.setWriter j ⟨r, .called⟩).setWriter j
        ⟨r, .ended⟩) :=
    steps_invalidate true (writers_setWriter _ j _) unlocked
  rw [setWriter_setWriter] at hfirst hcall hagain
  exact (((Relation.ReflTransGen.single (.write r isWrite free)).trans hfirst).tail hcall).trans hagain

/-! ### The invariant -/

/-- The store gives the answer that a copy holds, or a write that throws the copy away is under way. -/
def Vouches (t : Traffic) (c : Copy) : Prop := t.Unsettled c.1 ∨ t.store.Answers c

/-- An epoch that a reader may have noted: not while the lock is held, and so before the latest rise if it is. -/
def Dated (t : Traffic) (seen : Nat) : Prop :=
  seen ≤ t.shelf.epoch ∧ (t.lock.isSome = true → seen < t.shelf.epoch)

/-- What holds of a reader: its answer is what the store says, or will not be kept. -/
def Trusts (t : Traffic) : Reader → Prop
  | ⟨_, .asking seen⟩ => t.Dated seen
  | ⟨r, .keeping seen a⟩ =>
    t.Dated seen ∧ Copy.isKept ⟨r, a⟩ = true ∧ (seen = t.shelf.epoch → t.Vouches ⟨r, a⟩)
  | _ => True

/-- The shelf agrees with the store as far as no write is under way. -/
structure Coherent (t : Traffic) : Prop where
  ordered : t.store.Ordered
  vouched : ∀ c, t.shelf.Holds c → t.Vouches c
  trusted : ∀ i x, t.readers i = some x → t.Trusts x
  reads : ∀ i x, t.readers i = some x → x.request.isWrite = false
  locked : ∀ j w, t.writers j = some w → w.stage.isClearing = true → t.lock = some j
  /-- A write that is about to drop the copy of the listing for the second time has dropped that of its task. -/
  dropped : ∀ j r, t.writers j = some ⟨r, .clearing true .listing⟩ → ∀ id, r.id? = some id →
    ∀ c, t.shelf.Holds c → c.1 ≠ .get id

theorem coherent_start {b : Backend} (h : b.Ordered) : (start b).Coherent where
  ordered := h
  vouched c hc := absurd hc (Shelf.not_holds_empty c)
  trusted i x hx := by simp [start] at hx
  reads i x hx := by simp [start] at hx
  locked j w hw := by simp [start] at hw
  dropped j r hw := by simp [start] at hw

/-! ### Steps of readers -/

private theorem Trusts.mono {t t' : Traffic} {x : Reader} (h : t.Trusts x) (hepoch : t'.shelf.epoch = t.shelf.epoch)
    (hlock : t'.lock.isSome = true → t.lock.isSome = true)
    (hv : ∀ c, c.isKept = true → t.Vouches c → t'.Vouches c) : t'.Trusts x := by
  have hdated (seen : Nat) (hd : t.Dated seen) : t'.Dated seen := by
    unfold Dated
    rw [hepoch]
    exact ⟨hd.1, fun hl => hd.2 (hlock hl)⟩
  obtain ⟨r, stage⟩ := x
  cases stage with
  | asking seen => exact hdated seen h
  | keeping seen a =>
    obtain ⟨hd, hkept, hc⟩ := h
    exact ⟨hdated seen hd, hkept, fun he => hv _ hkept (hc (he.trans hepoch))⟩
  | _ => trivial

/-- Copies may vanish from the shelf at any time. -/
private theorem Coherent.shrink (h : t.Coherent) {s : Shelf} (hepoch : s.epoch = t.shelf.epoch)
    (hs : ∀ c, s.Holds c → t.shelf.Holds c) : { t with shelf := s : Traffic }.Coherent where
  ordered := h.ordered
  vouched c hc := h.vouched c (hs c hc)
  trusted i x hx := (h.trusted i x hx).mono hepoch id fun _ _ hc => hc
  reads := h.reads
  locked := h.locked
  dropped j r hw id hid c hc := h.dropped j r hw id hid c (hs c hc)

private theorem Coherent.setReader (h : t.Coherent) (i : Nat) {x : Reader} (hx : t.Trusts x)
    (hr : x.request.isWrite = false) : (t.setReader i x).Coherent where
  ordered := h.ordered
  vouched := h.vouched
  trusted k y hy := by
    simp only [Traffic.setReader] at hy
    split at hy
    · cases hy
      exact hx
    · exact h.trusted k y hy
  reads k y hy := by
    simp only [Traffic.setReader] at hy
    split at hy
    · cases hy
      exact hr
    · exact h.reads k y hy
  locked := h.locked
  dropped := h.dropped

/-- A reader whose epoch is still the present one adds a copy that is vouched for. -/
private theorem Coherent.keep (h : t.Coherent) {i : Nat} {r : Request} {seen : Nat} {a : r.Answer}
    (stage : t.readers i = some ⟨r, .keeping seen a⟩) (free : t.lock = none) (read : Instant) :
    { t with shelf := t.shelf.keep read seen r a : Traffic }.Coherent where
  ordered := h.ordered
  vouched c hc := by
    rcases Shelf.holds_keep hc with hc | ⟨hseen, rfl⟩
    · exact h.vouched c hc
    · exact (h.trusted i _ stage).2.2 hseen.symm
  trusted k x hx := (h.trusted k x hx).mono (t.shelf.epoch_keep read seen r a) id fun _ _ hc => hc
  reads := h.reads
  locked := h.locked
  dropped j r' hw := by
    -- the writer would hold the lock
    have hlock := h.locked j _ hw rfl
    rw [free] at hlock
    cases hlock

/-! ### Steps of writers -/

private theorem eq_or_of_writers_setWriter {j k : Nat} {w v : Writer} (h : (t.setWriter j w).writers k = some v) :
    (k = j ∧ v = w) ∨ (k ≠ j ∧ t.writers k = some v) := by
  simp only [setWriter] at h
  split at h
  · rename_i hk
    exact .inl ⟨hk, (Option.some.inj h).symm⟩
  · rename_i hk
    exact .inr ⟨hk, h⟩

/-- A write that stays between its two times leaves nothing unsettled less than before. -/
private theorem Unsettled.setWriter {r : Request} (h : t.Unsettled r) {j : Nat} {w : Writer}
    (hw : ∀ v, t.writers j = some v → v.stage.isBetween = true → w.stage.isBetween = true ∧ w.request = v.request) :
    (t.setWriter j w).Unsettled r := by
  obtain ⟨k, v, hv, hbetween, hr⟩ := h
  by_cases hk : k = j
  · subst hk
    obtain ⟨hb, he⟩ := hw v hv hbetween
    exact ⟨k, w, by simp [Traffic.setWriter], hb, he ▸ hr⟩
  · exact ⟨k, v, by simp [Traffic.setWriter, hk, hv], hbetween, hr⟩

private theorem Vouches.setWriter {c : Copy} (h : t.Vouches c) {j : Nat} {w : Writer}
    (hw : ∀ v, t.writers j = some v → v.stage.isBetween = true → w.stage.isBetween = true ∧ w.request = v.request) :
    (t.setWriter j w).Vouches c := by
  rcases h with h | h
  · exact .inl (h.setWriter hw)
  · exact .inr h

/-- A write that neither takes the lock nor ceases to be between its two times. -/
private theorem Coherent.setWriter (h : t.Coherent) {j : Nat} {w : Writer} (hclear : w.stage.isClearing = false)
    (hw : ∀ v, t.writers j = some v → v.stage.isBetween = true → w.stage.isBetween = true ∧ w.request = v.request) :
    (t.setWriter j w).Coherent where
  ordered := h.ordered
  vouched c hc := (h.vouched c hc).setWriter hw
  trusted i x hx := (h.trusted i x hx).mono rfl id fun _ _ hc => hc.setWriter hw
  reads := h.reads
  locked k v hv hc := by
    rcases eq_or_of_writers_setWriter hv with ⟨-, rfl⟩ | ⟨-, hv⟩
    · rw [hclear] at hc
      cases hc
    · exact h.locked k v hv hc
  dropped k r hv := by
    rcases eq_or_of_writers_setWriter hv with ⟨-, rfl⟩ | ⟨-, hv⟩
    · cases hclear
    · exact h.dropped k r hv

/-- With the rise of the epoch nothing is kept any more that a reader has asked for before. -/
private theorem Coherent.raise (h : t.Coherent) {j : Nat} {r : Request} {again : Bool}
    (stage : t.writers j = some ⟨r, .entry again⟩) (free : t.lock = none) :
    ({ t with shelf := t.shelf.raise, lock := some j : Traffic }.setWriter j ⟨r, .clearing again .task⟩).Coherent := by
  have hw (v : Writer) (hv : t.writers j = some v) (hb : v.stage.isBetween = true) :
      (Writing.clearing again .task).isBetween = true ∧ r = v.request := by
    rw [stage] at hv
    cases hv
    cases again with
    | true => exact ⟨rfl, rfl⟩
    | false => cases hb
  have hunlocked (k : Nat) (v : Writer) (hv : t.writers k = some v) : v.stage.isClearing = false := by
    rw [Bool.eq_false_iff]
    intro hc
    have hlock := h.locked k v hv hc
    rw [free] at hlock
    cases hlock
  refine ⟨h.ordered, fun c hc => ?_, fun i x hx => ?_, h.reads, fun k v hv hc => ?_, fun k r' hv => ?_⟩
  · have hvouched := h.vouched c (Shelf.holds_raise hc)
    exact Vouches.setWriter (t := { t with shelf := t.shelf.raise, lock := some j }) hvouched hw
  · have htr := h.trusted i x hx
    obtain ⟨r', reading⟩ := x
    cases reading with
    | asking seen =>
      have hle : seen ≤ t.shelf.epoch := htr.1
      exact ⟨Nat.le_succ_of_le hle, fun _ => Nat.lt_succ_of_le hle⟩
    | keeping seen a =>
      have hle : seen ≤ t.shelf.epoch := htr.1.1
      refine ⟨⟨Nat.le_succ_of_le hle, fun _ => Nat.lt_succ_of_le hle⟩, htr.2.1, fun he => ?_⟩
      have hrise : seen = t.shelf.epoch + 1 := he
      omega
    | _ => trivial
  · rcases eq_or_of_writers_setWriter hv with ⟨rfl, -⟩ | ⟨-, hv⟩
    · rfl
    · rw [hunlocked k v hv] at hc
      cases hc
  · rcases eq_or_of_writers_setWriter hv with ⟨-, hv⟩ | ⟨-, hv⟩
    · cases hv
    · cases hunlocked k _ hv

private theorem Coherent.dropTask (h : t.Coherent) {j : Nat} {r : Request} {again : Bool}
    (stage : t.writers j = some ⟨r, .clearing again .task⟩) :
    ({ t with shelf := t.shelf.dropTask r.id? : Traffic }.setWriter j ⟨r, .clearing again .listing⟩).Coherent := by
  have hw (v : Writer) (hv : t.writers j = some v) (hb : v.stage.isBetween = true) :
      (Writing.clearing again .listing).isBetween = true ∧ r = v.request := by
    rw [stage] at hv
    cases hv
    exact ⟨hb, rfl⟩
  have hs := h.shrink (t.shelf.epoch_dropTask r.id?) fun c hc => (Shelf.holds_dropTask hc).1
  refine ⟨h.ordered, fun c hc => (hs.vouched c hc).setWriter hw, fun i x hx => ?_, h.reads, fun k v hv hc => ?_,
    fun k r' hv id hid c hc => ?_⟩
  · exact (hs.trusted i x hx).mono rfl id fun _ _ hc => hc.setWriter hw
  · rcases eq_or_of_writers_setWriter hv with ⟨rfl, -⟩ | ⟨-, hv⟩
    · exact h.locked k _ stage rfl
    · exact h.locked k v hv hc
  · rcases eq_or_of_writers_setWriter hv with ⟨-, hv⟩ | ⟨-, hv⟩
    · cases hv
      exact (Shelf.holds_dropTask hc).2 id hid
    · exact hs.dropped k r' hv id hid c hc

/-- When a write lets go of the lock, it has dropped whatever it was to drop. -/
private theorem Coherent.dropListing (h : t.Coherent) {j : Nat} {r : Request} {again : Bool}
    (stage : t.writers j = some ⟨r, .clearing again .listing⟩) :
    ({ t with shelf := t.shelf.dropListing, lock := none : Traffic }.setWriter j ⟨r, .exit again⟩).Coherent := by
  have hlock : t.lock = some j := h.locked j _ stage rfl
  have hunlocked (k : Nat) (v : Writer) (hk : k ≠ j) (hv : t.writers k = some v) : v.stage.isClearing = false := by
    rw [Bool.eq_false_iff]
    intro hc
    have hother := h.locked k v hv hc
    rw [hlock] at hother
    exact hk (Option.some.inj hother).symm
  refine ⟨h.ordered, fun c hc => ?_, fun i x hx => ?_, h.reads, fun k v hv hc => ?_, fun k r' hv => ?_⟩
  · obtain ⟨held, hlist⟩ := Shelf.holds_dropListing hc
    rcases h.vouched c held with ⟨k, v, hv, hb, hu⟩ | ha
    · by_cases hk : k = j
      · -- the copies that this write unsettles are gone
        subst hk
        rw [stage] at hv
        cases hv
        have hagain : again = true := hb
        subst hagain
        have hdropped := h.dropped k r stage
        obtain ⟨q, a⟩ := c
        cases q with
        | get id => exact absurd rfl (hdropped id hu _ held)
        | list => exact absurd rfl hlist
        | _ => exact hu.elim
      · exact .inl ⟨k, v, by simp [Traffic.setWriter, hk, hv], hb, hu⟩
    · exact .inr ha
  · have htr := h.trusted i x hx
    obtain ⟨r', reading⟩ := x
    cases reading with
    | asking seen => exact ⟨htr.1, fun hl => by cases hl⟩
    | keeping seen a =>
      have hlt : seen < t.shelf.epoch := htr.1.2 (by rw [hlock]; rfl)
      refine ⟨⟨htr.1.1, fun hl => by cases hl⟩, htr.2.1, fun he => ?_⟩
      have hsame : seen = t.shelf.epoch := he
      omega
    | _ => trivial
  · rcases eq_or_of_writers_setWriter hv with ⟨-, rfl⟩ | ⟨hk, hv⟩
    · cases again <;> cases hc
    · rw [hunlocked k v hk hv] at hc
      cases hc
  · rcases eq_or_of_writers_setWriter hv with ⟨-, hv⟩ | ⟨hk, hv⟩
    · cases again <;> cases hv
    · cases hunlocked k _ hk hv

private theorem Coherent.carryOut (h : t.Coherent) {j : Nat} {r : Request}
    (stage : t.writers j = some ⟨r, .cleared⟩) (wall : Timestamp) :
    ({ t with store := (t.store.perform wall r).2 : Traffic }.setWriter j ⟨r, .called⟩).Coherent := by
  have hv (c : Copy) (hkept : c.isKept = true) (hc : t.Vouches c) :
      ({ t with store := (t.store.perform wall r).2 : Traffic }.setWriter j ⟨r, .called⟩).Vouches c := by
    by_cases hu : r.Unsettles c.1
    · exact .inl ⟨j, ⟨r, .called⟩, by simp [Traffic.setWriter], rfl, hu⟩
    rcases hc with hc | hc
    · left
      refine Unsettled.setWriter (t := { t with store := (t.store.perform wall r).2 }) hc fun v hv _ => ⟨rfl, ?_⟩
      rw [show t.writers j = some v from hv] at stage
      cases stage
      rfl
    · exact .inr (h.ordered.answers_perform wall hkept hu hc)
  refine ⟨h.ordered.perform wall r, fun c hc => hv c (Shelf.isKept_of_holds hc) (h.vouched c hc), fun i x hx => ?_,
    h.reads, fun k v hv hc => ?_, fun k r' hv => ?_⟩
  · exact (h.trusted i x hx).mono rfl id hv
  · rcases eq_or_of_writers_setWriter hv with ⟨-, rfl⟩ | ⟨-, hv⟩
    · cases hc
    · exact h.locked k v hv hc
  · rcases eq_or_of_writers_setWriter hv with ⟨-, hv⟩ | ⟨-, hv⟩
    · cases hv
    · exact h.dropped k r' hv

/-! ### Every step, every run -/

private theorem Coherent.isWrite_eq_false (h : t.Coherent) {i : Nat} {r : Request} {reading : Reading r}
    (stage : t.readers i = some ⟨r, reading⟩) : r.isWrite = false := h.reads i _ stage

private theorem Coherent.probe (h : t.Coherent) {r : Request} {begun : Instant} {p : Probe r.Answer} {s : Shelf}
    (hp : t.shelf.probe begun r = (p, s)) : { t with shelf := s : Traffic }.Coherent := by
  have hepoch := (t.shelf.probe_entries begun r).2.2
  have hs := h.shrink hepoch fun c => Shelf.holds_probe
  rwa [hp] at hs

private theorem Coherent.ask (h : t.Coherent) {i : Nat} {r : Request} {seen : Nat} {a : r.Answer}
    (stage : t.readers i = some ⟨r, .asking seen⟩) {wall : Timestamp} (answer : (t.store.perform wall r).1 = .ok a) :
    ({ t with store := (t.store.perform wall r).2 : Traffic }.setReader i
      ⟨r, if Copy.isKept ⟨r, a⟩ then .keeping seen a else .answered a⟩).Coherent := by
  have hread : r.isWrite = false := h.isWrite_eq_false stage
  rw [t.store.perform_of_not_isWrite hread wall wall]
  refine Coherent.setReader h i ?_ hread
  split
  · rename_i hkept
    exact ⟨h.trusted i _ stage, hkept, fun _ => .inr (Backend.answers_of_perform hread answer)⟩
  · trivial

theorem Coherent.step (h : t.Coherent) {t' : Traffic} (s : Step t t') : t'.Coherent := by
  cases s with
  | pass span => exact ⟨h.ordered, h.vouched, h.trusted, h.reads, h.locked, h.dropped⟩
  | sweepTasks read past => exact h.shrink rfl fun c => Shelf.holds_sweepTasks
  | sweepListing read past => exact h.shrink rfl fun c => Shelf.holds_sweepListing
  | readTask id free => exact h.setReader _ trivial rfl
  | readListing free => exact h.setReader _ trivial rfl
  | @hit i r begun a s stage probe =>
    exact (h.probe probe).setReader i trivial (h.isWrite_eq_false stage)
  | @miss i r begun s stage probe =>
    exact (h.probe probe).setReader i trivial (h.isWrite_eq_false stage)
  | @meetExpired i r begun s stage probe =>
    exact (h.probe probe).setReader i trivial (h.isWrite_eq_false stage)
  | @evict i r begun stage =>
    have hs := h.shrink (t.shelf.epoch_evict begun r) fun c => Shelf.holds_evict
    exact hs.setReader i trivial (h.isWrite_eq_false stage)
  | @date i r stage free =>
    refine h.setReader i ⟨Nat.le_refl _, fun hl => ?_⟩ (h.isWrite_eq_false stage)
    rw [free] at hl
    cases hl
  | ask stage wall answer => exact h.ask stage answer
  | @askInVain i r seen stage wall o failure notOk => exact h.setReader i trivial (h.isWrite_eq_false stage)
  | @keep i r seen a stage free read past =>
    exact (h.keep stage free read).setReader i trivial (h.isWrite_eq_false stage)
  | @write j r isWrite free =>
    refine h.setWriter rfl fun v hv => ?_
    rw [free] at hv
    cases hv
  | raise again stage free => exact h.raise stage free
  | dropTask stage => exact h.dropTask stage
  | dropListing stage => exact h.dropListing stage
  | carryOut stage wall ends => exact h.carryOut stage wall
  | @refuse j r stage =>
    refine h.setWriter rfl fun v hv _ => ⟨rfl, ?_⟩
    rw [stage] at hv
    cases hv
    rfl

theorem Reachable.steps {b : Backend} (h : Reachable b t) {t' : Traffic} (s : Relation.ReflTransGen Step t t') :
    Reachable b t' := by
  induction s with
  | refl => exact h
  | tail _ s ih => exact ih.step s

theorem Reachable.coherent {b : Backend} (hb : b.Ordered) (h : Reachable b t) : t.Coherent := by
  induction h with
  | start => exact coherent_start hb
  | step _ s ih => exact ih.step s

/-! ### While no write is under way -/

/-- What a reader has got is what the store says. -/
def Fits (b : Backend) : Reader → Prop
  | ⟨r, .keeping _ a⟩ => b.Answers ⟨r, a⟩
  | ⟨r, .answered a⟩ => b.Answers ⟨r, a⟩
  | _ => True

private theorem Quiet.answers (quiet : t.Quiet) {c : Copy} (h : t.Vouches c) : t.store.Answers c := by
  rcases h with ⟨j, w, hw, hb, -⟩ | h
  · rw [quiet j w hw] at hb
    cases hb
  · exact h

private theorem fits_of_setReader {b : Backend} {i k : Nat} {x y : Reader}
    (hy : (t.setReader k x).readers i = some y) (hi : ∀ z, t.readers i = some z → Fits b z) (hx : i = k → Fits b x) :
    Fits b y := by
  simp only [setReader] at hy
  split at hy
  · rename_i hk
    cases hy
    exact hx hk
  · exact hi y hy

/-- Readers do not change the store, and writers only between their two times of throwing copies away. -/
theorem Coherent.store_eq (h : t.Coherent) (quiet : t.Quiet) {t' : Traffic} (s : Step t t') : t'.store = t.store := by
  cases s with
  | @ask i r seen a stage wall answer =>
    have hsame := t.store.perform_of_not_isWrite (h.isWrite_eq_false stage) wall wall
    exact congrArg Prod.snd hsame
  | @carryOut j r stage wall ends => cases quiet j _ stage
  | _ => rfl

private theorem Coherent.fits_step (h : t.Coherent) (quiet : t.Quiet) {t' : Traffic} (s : Step t t') {i : Nat}
    (hi : ∀ x, t.readers i = some x → Fits t.store x) {x : Reader} (hx : t'.readers i = some x) :
    Fits t'.store x := by
  have hstore := h.store_eq quiet s
  rw [hstore]
  cases s with
  | readTask id free => exact fits_of_setReader hx hi fun _ => trivial
  | readListing free => exact fits_of_setReader hx hi fun _ => trivial
  | hit stage probe => exact fits_of_setReader hx hi fun _ => quiet.answers (h.vouched _ (Shelf.holds_of_probe probe))
  | miss stage probe => exact fits_of_setReader hx hi fun _ => trivial
  | meetExpired stage probe => exact fits_of_setReader hx hi fun _ => trivial
  | evict stage => exact fits_of_setReader hx hi fun _ => trivial
  | date stage free => exact fits_of_setReader hx hi fun _ => trivial
  | @ask k r seen a stage wall answer =>
    have ha : t.store.Answers ⟨r, a⟩ := Backend.answers_of_perform (h.isWrite_eq_false stage) answer
    refine fits_of_setReader hx hi fun _ => ?_
    split <;> exact ha
  | askInVain stage wall failure notOk => exact fits_of_setReader hx hi fun _ => trivial
  | @keep k r seen a stage free read past =>
    refine fits_of_setReader hx hi fun hk => ?_
    subst hk
    have ha : Fits t.store ⟨r, .keeping seen a⟩ := hi _ stage
    exact ha
  | _ => exact hi x hx

/-- A read that begins and runs while no write is under way gets what the store says. -/
private theorem QuietRun.fits {t t' : Traffic} (run : QuietRun t t') (h : t.Coherent) {i : Nat}
    (free : t.readers i = none) : t'.Coherent ∧ t'.Quiet ∧ ∀ x, t'.readers i = some x → Fits t'.store x := by
  induction run with
  | refl quiet => exact ⟨h, quiet, fun x hx => by rw [free] at hx; cases hx⟩
  | step _ s quiet' ih =>
    obtain ⟨hc, quiet, hi⟩ := ih
    exact ⟨hc.step s, quiet', fun x hx => hc.fits_step quiet s hi hx⟩

/-- **Main theorem.**  Whatever reads and writes are under way: the live copy of a task that no write between its two
times of throwing copies away names is what the store says, and so is the live copy of the listing if no write at all
is between them.  A read that runs while that is so gets what the store says. -/
theorem Reachable.shelf_agrees_with_store {b : Backend} (hb : b.Ordered) (h : Reachable b t) :
    (∀ k task, t.shelf.tasks.Shows t.now k task →
      (∀ j w, t.writers j = some w → w.request.id? = some k → w.stage.isBetween = false) →
      ∀ wall, t.store.perform wall (.get k) = (.ok (some task), t.store)) ∧
    (∀ tasks, t.shelf.listing.Shows t.now () tasks → t.Quiet →
      ∀ wall, t.store.perform wall .list = (.ok tasks, t.store)) ∧
    ∀ t' i r a, QuietRun t t' → t.readers i = none → t'.readers i = some ⟨r, .answered a⟩ →
      ∀ wall, t'.store.perform wall r = (.ok a, t'.store) := by
  have hc := h.coherent hb
  refine ⟨fun k task hshown hsettled => ?_, fun tasks hshown quiet => ?_, fun t' i r a run free hanswered => ?_⟩
  · rcases hc.vouched _ (Shelf.holds_of_shows_task hshown) with ⟨j, w, hw, hb, hu⟩ | ha
    · rw [hsettled j w hw hu] at hb
      cases hb
    · exact ha
  · exact quiet.answers (hc.vouched _ (Shelf.holds_of_shows_listing hshown))
  · obtain ⟨-, -, hi⟩ := run.fits hc free
    exact hi _ hanswered

/-- The tasks are listed, a task is claimed, and the task and the tasks are read again. -/
theorem shelf_agrees_with_store_after_claim : ∃ t t' task,
    Reachable (.memory ⟨1, [⟨1, "a", .pending, .earliest, none, none, "u", 0, 0⟩]⟩) t ∧ task.status = .processing ∧
      t.shelf.tasks.Shows t.now 1 task ∧ (∀ wall, t.store.perform wall (.get 1) = (.ok (some task), t.store)) ∧
      t.shelf.listing.Shows t.now () [task] ∧ t.Quiet ∧
      (∀ wall, t.store.perform wall .list = (.ok [task], t.store)) ∧
      QuietRun t t' ∧ t.readers 3 = none ∧ t'.readers 3 = some ⟨.get 1, .answered (some task)⟩ ∧
      ∀ wall, t'.store.perform wall (.get 1) = (.ok (some task), t'.store) := by
  let waiting : Task := ⟨1, "a", .pending, .earliest, none, none, "u", 0, 0⟩
  let task : Task := ⟨1, "a", .processing, .earliest, some .earliest, none, "u", 1, 1⟩
  let claim : StatusUpdate := (StatusUpdate.claim .earliest).expecting 0
  let b : Backend := .memory ⟨1, [waiting]⟩
  have hb : b.Ordered := ⟨List.pairwise_singleton _ _, by simp [waiting]⟩
  have hlist := (Reachable.start (b := b)).steps (steps_read (i := 0) (a := [waiting]) (.readListing rfl) rfl rfl rfl
    .earliest rfl rfl)
  have hclaim := hlist.steps (steps_write (j := 0) (r := .updateStatus 1 claim) rfl rfl rfl .earliest rfl)
  have hget := hclaim.steps (steps_read (i := 1) (a := some task) (.readTask 1 rfl) rfl rfl rfl .earliest rfl rfl)
  obtain ⟨t, h, htask, hlisting, hfree, hwriters, s, hprobe⟩ : ∃ t, Reachable b t ∧
      t.shelf.tasks.Shows t.now 1 task ∧ t.shelf.listing.Shows t.now () [task] ∧ t.readers 3 = none ∧
      (∀ j, t.writers j = if j = 0 then some ⟨.updateStatus 1 claim, .ended⟩ else none) ∧
      ∃ s, t.shelf.probe t.now (.get 1) = (.hit (some task), s) :=
    ⟨_, hget.steps (steps_read (i := 2) (a := [task]) (.readListing rfl) rfl rfl rfl .earliest rfl rfl),
      ⟨_, rfl, rfl, rfl⟩, ⟨_, rfl, rfl, rfl⟩, rfl, fun _ => rfl, _, rfl⟩
  have hquiet : t.Quiet := by
    intro j w hw
    rw [hwriters] at hw
    split at hw <;> cases hw
    rfl
  -- time passes before the reader gets at the copy
  have hrun := (((QuietRun.refl hquiet).step (.readTask 1 hfree) hquiet).step (.pass (.ofSecs 1)) hquiet).step
    (.hit (i := 3) (readers_setReader t 3 ⟨.get 1, .looking t.now⟩) hprobe) hquiet
  obtain ⟨hshelf, hlist', hread⟩ := h.shelf_agrees_with_store hb
  refine ⟨t, _, task, h, rfl, htask, ?_, hlisting, hquiet, ?_, hrun, hfree, rfl, ?_⟩
  · exact hshelf 1 task htask fun j w hw _ => hquiet j w hw
  · exact hlist' [task] hlisting hquiet
  · exact hread _ 3 (.get 1) (some task) hrun hfree rfl

end Traffic

end Backlog.Store
