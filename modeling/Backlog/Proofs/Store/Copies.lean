import Backlog.Proofs.Store.Footprint
import Backlog.Store.Shelf

/-!
# Copies on the shelf

The operations of the shelf in the parts between which other callers may act: a look at the shelf is a probe and, where
it meets a copy whose time is up, an eviction (`Shelf.find?_eq`); copies are thrown away by raising the epoch, dropping
the copy of the task and dropping the copy of the listing (`Shelf.invalidate_eq`).

Key facts: `Shelf.keep` is the only operation after which the shelf may hold a copy that it did not hold before
(`Shelf.holds_keep`), and after a part that drops a copy it holds no such copy (`Shelf.holds_dropTask`,
`Shelf.holds_dropListing`).
-/

namespace Backlog.Cache.Timed

/-! ### The entries of a timed cache -/

variable {κ α : Type} [DecidableEq κ]

/-- A live value under a key. -/
def Shows (c : Timed κ α) (now : Instant) (k : κ) (v : α) : Prop :=
  ∃ e, c.find? k = some e ∧ e.isExpired now = false ∧ e.value = v

theorem mem_of_find? {c : Timed κ α} {k : κ} {e : Entry α} (h : c.find? k = some e) : (k, e) ∈ c.entries := by
  obtain ⟨l₁, l₂, hl, -⟩ := List.lookup_eq_some_iff.1 h
  rw [hl]
  simp

theorem entries_probe (c : Timed κ α) (k : κ) (now : Instant) : (c.probe k now).2.entries = c.entries := by
  unfold probe
  split
  · rfl
  · split <;> rfl

theorem mem_evict {c : Timed κ α} {k : κ} {now : Instant} {x : κ × Entry α} (h : x ∈ (c.evict k now).entries) :
    x ∈ c.entries := by
  unfold evict at h
  dsimp only at h
  split at h
  · exact h
  · split at h
    · exact (List.mem_filter.1 h).1
    · exact h

theorem mem_delete {c : Timed κ α} {k : κ} {x : κ × Entry α} (h : x ∈ (c.delete k).2.entries) :
    x.1 ≠ k ∧ x ∈ c.entries := by
  unfold delete at h
  split at h
  · obtain ⟨hx, hne⟩ := List.mem_filter.1 h
    exact ⟨by simpa using hne, hx⟩
  · rename_i hnone
    have hne := List.lookup_eq_none_iff.1 (Option.not_isSome_iff_eq_none.1 hnone) x h
    exact ⟨fun e => by simp [e] at hne, h⟩

theorem mem_set {c : Timed κ α} {k : κ} {v : α} {ttl : Duration} {now : Instant} {x : κ × Entry α}
    (h : x ∈ (c.set k v ttl now).entries) : (x.1 = k ∧ x.2.value = v) ∨ x ∈ c.entries := by
  rcases List.mem_cons.1 h with rfl | h
  · exact .inl ⟨rfl, rfl⟩
  · exact .inr (List.mem_filter.1 h).1

omit [DecidableEq κ] in
theorem mem_sweep {c : Timed κ α} {now : Instant} {x : κ × Entry α} (h : x ∈ (c.sweep now).2.entries) :
    x ∈ c.entries := (List.mem_filter.1 h).1

theorem shows_of_probe {c c' : Timed κ α} {k : κ} {now : Instant} {v : α} (h : c.probe k now = (.hit v, c')) :
    c.Shows now k v := by
  unfold probe at h
  split at h
  · cases h
  · rename_i e he
    split at h
    · cases h
    · rename_i hlive
      cases h
      exact ⟨e, he, by simpa using hlive, rfl⟩

end Backlog.Cache.Timed

namespace Backlog.Store

open Cache

/-- A request with an answer to it. -/
abbrev Copy := (r : Request) × r.Answer

namespace Copy

/-- Whether a reader that has got this answer puts it on the shelf. -/
def isKept : Copy → Bool
  | ⟨.get _, task⟩ => task.isSome
  | ⟨.list, _⟩ => true
  | _ => false

end Copy

/-- Whether copies that answer a request are thrown away by a write. -/
def Request.Unsettles (w : Request) : Request → Prop
  | get id => w.id? = some id
  | list => True
  | _ => False

namespace Shelf

/-! ### The parts of the operations -/

/-- The first part of a look at the shelf, which only reads the copies. -/
def probe (s : Shelf) (now : Instant) : (r : Request) → Probe r.Answer × Shelf
  | .get id =>
    match s.tasks.probe id now with
    | (.hit t, tasks) => (.hit (some t), { s with tasks })
    | (.absent, tasks) => (.absent, { s with tasks })
    | (.expired, tasks) => (.expired, { s with tasks })
  | .list =>
    let (p, listing) := s.listing.probe () now
    (p, { s with listing })
  | _ => (.absent, s)

/-- The second part of a look that has met a copy whose time was up. -/
def evict (s : Shelf) (now : Instant) : Request → Shelf
  | .get id => { s with tasks := s.tasks.evict id now }
  | .list => { s with listing := s.listing.evict () now }
  | _ => s

theorem find?_eq (s : Shelf) (now : Instant) (r : Request) :
    s.find? now r =
      match s.probe now r with
      | (.hit a, s) => (some a, s)
      | (.absent, s) => (none, s)
      | (.expired, s) => (none, s.evict now r) := by
  cases r with
  | get id =>
    simp only [find?, probe, Timed.get]
    rcases s.tasks.probe id now with ⟨_ | _ | _, c⟩ <;> rfl
  | list =>
    simp only [find?, probe, Timed.get]
    rcases s.listing.probe () now with ⟨_ | _ | _, c⟩ <;> rfl
  | _ => rfl

/-- Begins a new epoch. -/
def raise (s : Shelf) : Shelf := { s with epoch := s.epoch + 1 }

/-- Drops the copy of a task, if a task is named. -/
def dropTask (s : Shelf) : Option Int → Shelf
  | some id => { s with tasks := (s.tasks.delete id).2 }
  | none => s

/-- Drops the copy of the listing. -/
def dropListing (s : Shelf) : Shelf := { s with listing := (s.listing.delete ()).2 }

theorem invalidate_eq (s : Shelf) (id? : Option Int) : s.invalidate id? = (s.raise.dropTask id?).dropListing := by
  cases id? <;> rfl

/-! ### What the shelf holds -/

/-- The shelf holds a copy, live or not. -/
inductive Holds (s : Shelf) : Copy → Prop where
  | task {id : Int} {e : Entry Task} (h : (id, e) ∈ s.tasks.entries) : Holds s ⟨.get id, some e.value⟩
  | listing {e : Entry (List Task)} (h : ((), e) ∈ s.listing.entries) : Holds s ⟨.list, e.value⟩

theorem not_holds_empty (c : Copy) : ¬ empty.Holds c := by
  intro h
  cases h with
  | task h => exact absurd h List.not_mem_nil
  | listing h => exact absurd h List.not_mem_nil

/-- The copies that a shelf holds are among those of another if its entries are. -/
private theorem Holds.mono {s s' : Shelf} {c : Copy} (h : s'.Holds c)
    (ht : ∀ x ∈ s'.tasks.entries, x ∈ s.tasks.entries) (hl : ∀ x ∈ s'.listing.entries, x ∈ s.listing.entries) :
    s.Holds c := by
  cases h with
  | task h => exact .task (ht _ h)
  | listing h => exact .listing (hl _ h)

theorem isKept_of_holds {s : Shelf} {c : Copy} (h : s.Holds c) : c.isKept = true := by
  cases h <;> rfl

theorem holds_of_shows_task {s : Shelf} {now : Instant} {id : Int} {t : Task} (h : s.tasks.Shows now id t) :
    s.Holds ⟨.get id, some t⟩ := by
  obtain ⟨e, he, -, rfl⟩ := h
  exact .task (Timed.mem_of_find? he)

theorem holds_of_shows_listing {s : Shelf} {now : Instant} {ts : List Task} (h : s.listing.Shows now () ts) :
    s.Holds ⟨.list, ts⟩ := by
  obtain ⟨e, he, -, rfl⟩ := h
  exact .listing (Timed.mem_of_find? he)

theorem holds_of_probe {s s' : Shelf} {now : Instant} {r : Request} {a : r.Answer}
    (h : s.probe now r = (.hit a, s')) : s.Holds ⟨r, a⟩ := by
  cases r with
  | get id =>
    simp only [probe] at h
    split at h <;> cases h
    rename_i hp
    exact holds_of_shows_task (Timed.shows_of_probe hp)
  | list =>
    simp only [probe, Prod.mk.injEq] at h
    exact holds_of_shows_listing (Timed.shows_of_probe (Prod.ext h.1 rfl))
  | _ => simp [probe] at h

theorem probe_entries (s : Shelf) (now : Instant) (r : Request) :
    (s.probe now r).2.tasks.entries = s.tasks.entries ∧ (s.probe now r).2.listing.entries = s.listing.entries ∧
      (s.probe now r).2.epoch = s.epoch := by
  cases r with
  | get id =>
    have he := Timed.entries_probe s.tasks id now
    simp only [probe]
    split <;> rename_i hp <;> rw [hp] at he <;> exact ⟨he, rfl, rfl⟩
  | list => exact ⟨rfl, Timed.entries_probe s.listing () now, rfl⟩
  | _ => exact ⟨rfl, rfl, rfl⟩

theorem holds_probe {s : Shelf} {now : Instant} {r : Request} {c : Copy} (h : (s.probe now r).2.Holds c) :
    s.Holds c := by
  obtain ⟨ht, hl, -⟩ := s.probe_entries now r
  exact h.mono (fun x hx => ht ▸ hx) fun x hx => hl ▸ hx

theorem holds_evict {s : Shelf} {now : Instant} {r : Request} {c : Copy} (h : (s.evict now r).Holds c) :
    s.Holds c := by
  cases r with
  | get id => exact h.mono (fun _ => Timed.mem_evict) fun _ hx => hx
  | list => exact h.mono (fun _ hx => hx) fun _ => Timed.mem_evict
  | _ => exact h

theorem epoch_evict (s : Shelf) (now : Instant) (r : Request) : (s.evict now r).epoch = s.epoch := by
  cases r <;> rfl

theorem holds_sweepTasks {s : Shelf} {now : Instant} {c : Copy}
    (h : { s with tasks := (s.tasks.sweep now).2 : Shelf }.Holds c) : s.Holds c :=
  h.mono (fun _ => Timed.mem_sweep) fun _ hx => hx

theorem holds_sweepListing {s : Shelf} {now : Instant} {c : Copy}
    (h : { s with listing := (s.listing.sweep now).2 : Shelf }.Holds c) : s.Holds c :=
  h.mono (fun _ hx => hx) fun _ => Timed.mem_sweep

theorem holds_raise {s : Shelf} {c : Copy} (h : s.raise.Holds c) : s.Holds c :=
  h.mono (fun _ hx => hx) fun _ hx => hx

theorem holds_dropTask {s : Shelf} {id? : Option Int} {c : Copy} (h : (s.dropTask id?).Holds c) :
    s.Holds c ∧ ∀ id, id? = some id → c.1 ≠ .get id := by
  cases id? with
  | none => exact ⟨h, fun _ e => by cases e⟩
  | some j =>
    cases h with
    | task h =>
      obtain ⟨hne, h⟩ := Timed.mem_delete h
      refine ⟨.task h, fun id e he => hne ?_⟩
      cases e
      injection he
    | listing h => exact ⟨.listing h, fun _ _ he => by cases he⟩

theorem holds_dropListing {s : Shelf} {c : Copy} (h : s.dropListing.Holds c) : s.Holds c ∧ c.1 ≠ .list := by
  cases h with
  | task h => exact ⟨.task h, fun e => by cases e⟩
  | listing h => exact absurd rfl (Timed.mem_delete h).1

theorem epoch_dropTask (s : Shelf) (id? : Option Int) : (s.dropTask id?).epoch = s.epoch := by
  cases id? <;> rfl

theorem holds_keep {s : Shelf} {now : Instant} {seen : Nat} {r : Request} {a : r.Answer} {c : Copy}
    (h : (s.keep now seen r a).Holds c) : s.Holds c ∨ (s.epoch = seen ∧ c = ⟨r, a⟩) := by
  cases r with
  | get id =>
    cases a with
    | none => exact .inl h
    | some t =>
      simp only [keep] at h
      split at h
      · rename_i hseen
        cases h with
        | task h =>
          rcases Timed.mem_set h with ⟨rfl, rfl⟩ | h
          · exact .inr ⟨hseen, rfl⟩
          · exact .inl (.task h)
        | listing h => exact .inl (.listing h)
      · exact .inl h
  | list =>
    simp only [keep] at h
    split at h
    · rename_i hseen
      cases h with
      | task h => exact .inl (.task h)
      | listing h =>
        rcases Timed.mem_set h with ⟨-, rfl⟩ | h
        · exact .inr ⟨hseen, rfl⟩
        · exact .inl (.listing h)
    · exact .inl h
  | _ => exact .inl h

theorem epoch_keep (s : Shelf) (now : Instant) (seen : Nat) (r : Request) (a : r.Answer) :
    (s.keep now seen r a).epoch = s.epoch := by
  unfold keep
  split
  · split <;> rfl
  · split <;> rfl
  · rfl

end Shelf

/-! ### What the store says -/

/-- The store gives this answer to a request, whatever the clock says, and stays as it is. -/
def Backend.Answers (b : Backend) (c : Copy) : Prop := ∀ now, b.perform now c.1 = (.ok c.2, b)

theorem Backend.answers_of_perform {b : Backend} {now : Timestamp} {r : Request} (hr : r.isWrite = false)
    {a : r.Answer} (h : (b.perform now r).1 = .ok a) : b.Answers ⟨r, a⟩ := by
  intro now'
  show b.perform now' r = _
  rw [b.perform_of_not_isWrite hr now' now, h]

/-- A write that does not throw a copy away does not make it untrue. -/
theorem Backend.Ordered.answers_perform {b : Backend} (h : b.Ordered) (now : Timestamp) {w : Request} {c : Copy}
    (hkept : c.isKept = true) (hw : ¬ w.Unsettles c.1) (hc : b.Answers c) : (b.perform now w).2.Answers c := by
  obtain ⟨r, a⟩ := c
  cases r with
  | get id =>
    cases a with
    | none => simp [Copy.isKept] at hkept
    | some t =>
      have ht : (b.perform now (.get id)).1 = .ok (some t) := congrArg Prod.fst (hc now)
      exact answers_of_perform rfl (h.get_perform now hw ht)
  | list => exact absurd trivial hw
  | _ => simp [Copy.isKept] at hkept

end Backlog.Store
