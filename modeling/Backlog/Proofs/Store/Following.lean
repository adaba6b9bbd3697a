import Backlog.Proofs.Store.Mirror
import Backlog.Proofs.Store.Recall

/-!
# A store and the one that it stands for, request by request

Whatever is asked of a store, the store in memory for which it stands follows: with the same request as the store hears
it, or with a mere look where a table has no identifier left for a new task.

Key facts: every request has such a counterpart, and every task in the answer to it is recalled afterwards
(`Backend.Represents.follows`).
-/

namespace Backlog.Store

/-- The tasks in the answer to a request. -/
def Request.tasks : (r : Request) → r.Answer → List Task
  | create _, t => [t]
  | get _, t => t.toList
  | getFresh _, t => t.toList
  | list, ts => ts
  | listByStatus _, ts => ts
  | updateText _ _, _ => []
  | updateStatus _ _, _ => []
  | delete _, _ => []

private theorem tasks_shown (text : String → String) (time : Timestamp → Timestamp) (task : Task → Task) (r : Request)
    (a : (r.adjusted text time).Answer) :
    r.tasks (r.shown text time task a) = ((r.adjusted text time).tasks a).map task := by
  cases r with
  | get id => exact Option.toList_map
  | getFresh id => exact Option.toList_map
  | _ => rfl

theorem Memory.Ordered.recalls_of_answer {m : Memory} (h : m.Ordered) (now : Timestamp) (r : Request)
    {a : r.Answer} (ha : (m.perform now r).1 = .ok a) {t : Task} (ht : t ∈ r.tasks a) :
    (m.perform now r).2.Recalls t := by
  cases r with
  | create new =>
    refine (h.perform now (.create new)).recalls_of_mem ?_
    cases ha
    obtain rfl := List.mem_singleton.1 ht
    exact List.mem_append_right _ (List.mem_singleton_self _)
  | get id =>
    refine h.recalls_of_mem ?_
    cases ha
    exact mem_of_find? (Option.mem_toList.1 ht)
  | getFresh id =>
    refine h.recalls_of_mem ?_
    cases ha
    exact mem_of_find? (Option.mem_toList.1 ht)
  | list =>
    refine h.recalls_of_mem ?_
    cases ha
    exact ht
  | listByStatus status =>
    refine h.recalls_of_mem ?_
    cases ha
    exact (List.mem_filter.1 ht).1
  | _ => cases ht

private theorem eq_ok_of_mapOk {α β : Type} {f : α → β} {o : Outcome α} {b : β} (h : o.mapOk f = .ok b) :
    ∃ a, o = .ok a ∧ f a = b := by
  rcases o with (e | a) | text
  · cases h
  · exact ⟨a, rfl, by cases h; rfl⟩
  · cases h

namespace Backend

theorem shows_perform (b : Backend) (now : Timestamp) (r : Request) : (b.perform now r).2.shows = b.shows := by
  cases b <;> rfl

/-- How a store in memory follows one that stands for it: it hears the same, or looks on where no identifier is left. -/
def Heard (b : Backend) (r r' : Request) : Prop := r' = b.hears r ∨ (∃ new, r = .create new) ∧ r' = .list

variable {b : Backend} {m : Memory} {r r' : Request} {id : Int} {u : StatusUpdate}

theorem Heard.eq_of_updateStatus (h : b.Heard (.updateStatus id u) r') :
    r' = .updateStatus id (u.adjusted b.timeOf) := by
  rcases h with h | ⟨⟨new, h⟩, -⟩
  · exact h
  · cases h

theorem Heard.updateStatus (h : b.Heard r (.updateStatus id u)) :
    ∃ w, r = .updateStatus id w ∧ u = w.adjusted b.timeOf := by
  rcases h with h | ⟨-, h⟩
  · cases r <;> cases h
    exact ⟨_, rfl, rfl⟩
  · cases h

/-- Every request has a counterpart for the store in memory, and what its answer shows is recalled afterwards. -/
theorem Represents.follows (h : b.Represents m) (hm : m.Ordered) (now : Timestamp) (r : Request)
    (room : ∀ id u, r = .updateStatus id u → m.HasRoom r) :
    ∃ now' r', b.Heard r r' ∧ (b.perform now r).2.Represents (m.perform now' r').2 ∧
      ∀ a, (b.perform now r).1 = .ok a → ∀ t ∈ r.tasks a, ∃ t', b.shows t' = t ∧ (m.perform now' r').2.Recalls t' := by
  by_cases hroom : ∀ tab, b = table tab → m.HasRoom r
  · obtain ⟨hanswer, hafter⟩ := h.perform hm now hroom
    refine ⟨b.timeOf now, b.hears r, .inl rfl, hafter, fun a ha t ht => ?_⟩
    obtain ⟨a', ha', rfl⟩ := eq_ok_of_mapOk (hanswer.symm.trans ha)
    rw [tasks_shown] at ht
    obtain ⟨t', ht', rfl⟩ := List.mem_map.1 ht
    exact ⟨t', rfl, hm.recalls_of_answer _ _ ha' ht'⟩
  · -- a table without an identifier for a new task
    push Not at hroom
    obtain ⟨tab, rfl, hfull⟩ := hroom
    cases r with
    | create new =>
      obtain ⟨⟨e, he⟩, hsame⟩ := Table.Mirrors.create_of_full h now new hfull
      have hafter : ((table tab).perform now (.create new)).2 = table tab := congrArg table hsame
      have hanswer : ((table tab).perform now (.create new)).1 = .error e := he
      refine ⟨now, .list, .inr ⟨⟨new, rfl⟩, rfl⟩, ?_, fun a ha => ?_⟩
      · rw [hafter]
        exact h
      · rw [hanswer] at ha
        cases ha
    | updateStatus id u => exact absurd (room id u rfl) hfull
    | _ => exact absurd trivial hfull

end Backend

end Backlog.Store
