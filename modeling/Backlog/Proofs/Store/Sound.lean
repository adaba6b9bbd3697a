import Backlog.Proofs.Store.Following
import Backlog.Proofs.Store.Keeping
import Backlog.Settings

/-!
# A store that can be relied on

All that a store holds can be read from it, and the tasks that a restarted dispatcher moves can be moved.

Key facts: such a store answers a listing by status with just the tasks that it holds (`Backend.Sound.listed`), makes an
update that the task does not refuse (`Backend.Sound.updateStatus`), and stays such whatever is asked of it that changes
no status and removes nothing (`Backend.Sound.perform_of_isPeaceful`).
-/

namespace Backlog

open Store

/-- The request changes no status and removes no task. -/
def Store.Request.isPeaceful : Request → Bool
  | updateStatus _ _ => false
  | delete _ => false
  | _ => true

/-- The numbers of a task fit into every store, also after a restarted dispatcher has moved it if it does. -/
structure Task.Sized (s : Settings) (t : Task) : Prop where
  attempts_le : t.attempts ≤ Row.mostAttempts
  room : t.status = .processing ∨ t.status = .pending ∧ s.maxAttempts ≤ t.attempts → t.HasRoom

theorem Task.Sized.of_same {fixed : Prop} {s : Settings} {t t' : Task} (h : t.Sized s) (same : t.Same fixed t') :
    t'.Sized s := by
  obtain ⟨text, -, rfl⟩ := same
  refine ⟨h.attempts_le, fun hmoves => ?_⟩
  have hroom := h.room hmoves
  exact ⟨hroom.least_le, hroom.lt_most, hroom.attempts_lt⟩

namespace Store

/-- A peaceful request spares every task. -/
theorem Request.spares_of_isPeaceful {r : Request} (h : r.isPeaceful = true) (id : Int) : r.Spares False id := by
  cases r with
  | updateText j text => exact False.elim
  | updateStatus j u => cases h
  | delete j => cases h
  | _ => trivial

/-- A store stands for a store in memory, the tasks of which fit into it. -/
structure Backend.Sound (s : Settings) (b : Backend) (m : Memory) : Prop where
  represents : b.Represents m
  ordered : m.Ordered
  sized : ∀ t ∈ m.tasks, t.Sized s

private theorem sized_zero : Sql.leastInteger ≤ 0 ∧ 0 < Sql.mostInteger := by decide

namespace Backend.Sound

variable {s : Settings} {b : Backend} {m : Memory} {t : Task}

theorem backend_ordered (h : b.Sound s m) : b.Ordered := by
  cases b with
  | memory m' =>
    obtain rfl : m' = m := h.represents
    exact h.ordered
  | table tab => exact Table.Mirrors.ordered h.represents h.ordered

theorem keeps (h : b.Sound s m) (ht : t ∈ m.tasks) : b.Keeps t := by
  have hfind := h.ordered.find?_of_mem ht
  cases b with
  | memory m' =>
    obtain rfl : m' = m := h.represents
    exact hfind
  | table tab =>
    rcases Table.Mirrors.find? h.represents t.id with ⟨-, hnone⟩ | ⟨r, t', hr, ht', hshows⟩
    · rw [hfind] at hnone
      cases hnone
    · rw [hfind] at ht'
      cases ht'
      exact ⟨r, hr, hshows⟩

theorem listed (h : b.Sound s m) (wall : Timestamp) (a : Status) :
    b.perform wall (.listByStatus a) = (.ok (m.withStatus a), b) := by
  have hshown : (m.withStatus a).map b.shows = m.withStatus a := by
    refine (List.map_congr_left fun t ht => ?_).trans (List.map_id _)
    exact b.shows_eq_self (h.sized t (List.mem_filter.1 ht).1).attempts_le
  rw [h.represents.listByStatus, hshown]

theorem perform_of_isPeaceful (h : b.Sound s m) (wall : Timestamp) {r : Request} (hr : r.isPeaceful = true) :
    ∃ m', (b.perform wall r).2.Sound s m' ∧ ∀ c, (memory m).Retains False c → (memory m').Retains False c := by
  obtain ⟨now, r', heard, hafter, -⟩ := h.represents.follows h.ordered wall r fun id u he => by
    subst he
    cases hr
  have hr' : r'.isPeaceful = true := by
    rcases heard with rfl | ⟨-, rfl⟩
    · cases r <;> first
        | rfl
        | cases hr
    · rfl
  refine ⟨(m.perform now r').2, ⟨hafter, h.ordered.perform now r', fun t' ht' => ?_⟩, fun c hc => ?_⟩
  · have hfind := (h.ordered.perform now r').find?_of_mem ht'
    rcases h.ordered.origin now r' hfind with ⟨new, -, -, rfl⟩ | ⟨t, ht, rfl | ⟨text, -, rfl⟩ | ⟨u, rfl, -, -⟩⟩
    · exact ⟨Nat.zero_le _, fun _ => ⟨sized_zero.1, sized_zero.2, sized_zero.2⟩⟩
    · exact h.sized _ (Memory.mem_of_find? ht)
    · exact (h.sized t (Memory.mem_of_find? ht)).of_same ⟨text, False.elim, rfl⟩
    · cases hr'
  · exact Retains.perform (b := memory m) hc h.ordered now (r'.spares_of_isPeaceful hr' c.id)

theorem updateStatus (h : b.Sound s m) (wall : Timestamp) {id : Int} {u : StatusUpdate} (ht : m.find? id = some t)
    (hu : u.refusal? t = none) (room : t.HasRoom) (sized : ((u.adjusted b.timeOf).applyTo t).Sized s) :
    (b.perform wall (.updateStatus id u)).1 = .ok () ∧
      ∃ m', (b.perform wall (.updateStatus id u)).2.Sound s m' ∧
        ∀ c, c.id ≠ id → (memory m).Retains False c → (memory m').Retains False c := by
  refine ⟨(h.represents.updateStatus_ok_iff h.ordered wall id u).2 ⟨t, ht, hu⟩,
    (m.perform wall (.updateStatus id (u.adjusted b.timeOf))).2, ⟨?_, h.ordered.perform wall _, fun t' ht' => ?_⟩,
    fun c hc hkept => Retains.perform (b := memory m) hkept h.ordered wall (r := .updateStatus id _) (Ne.symm hc)⟩
  · cases b with
    | memory m' =>
      obtain rfl : m' = m := h.represents
      have hsame : u.adjusted (memory m').timeOf = u := by simp [StatusUpdate.adjusted, timeOf]
      rw [hsame]
      rfl
    | table tab =>
      refine (Table.Mirrors.updateStatus h.represents h.ordered id u fun t' ht' _ => ?_).2
      rw [ht] at ht'
      cases ht'
      exact room
  · have hfind := (h.ordered.perform wall _).find?_of_mem ht'
    rcases h.ordered.origin wall _ hfind with ⟨new, he, -, -⟩ | ⟨t₀, ht₀, rfl | ⟨text, he, -⟩ | ⟨w, he, -, rfl⟩⟩
    · cases he
    · exact h.sized _ (Memory.mem_of_find? ht₀)
    · cases he
    · injection he with hid hu'
      rw [← hid, ht] at ht₀
      cases ht₀
      rw [← hu']
      exact sized

end Backend.Sound

end Store

end Backlog
