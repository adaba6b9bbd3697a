import Backlog.Proofs.Store.Order

/-!
# What a request leaves as it is

A request that is no write leaves the whole store as it is, and its answer does not depend on the clock
(`Backend.perform_of_not_isWrite`).  A write leaves every stored task as it is that it does not name
(`Backend.Ordered.get_perform`): a new task has an identifier that no stored task has.
-/

namespace Backlog.Store

namespace Memory

theorem Ordered.find?_perform {m : Memory} (h : m.Ordered) (now : Timestamp) {w : Request} {k : Int}
    (hk : w.id? ≠ some k) {t : Task} (ht : m.find? k = some t) : (m.perform now w).2.find? k = some t := by
  cases w with
  | create new =>
    have hle := h.le_lastId t (mem_of_find? ht)
    rw [id_of_find? ht] at hle
    have hne : k ≠ m.lastId + 1 := by omega
    exact (h.find?_create now new k).trans (by rw [if_neg hne, ht])
  | get id => exact ht
  | getFresh id => exact ht
  | list => exact ht
  | listByStatus status => exact ht
  | updateText id text =>
    have hne : k ≠ id := fun e => hk (by simp [Request.id?, e])
    simp only [Memory.perform, updateText]
    split
    · exact ht
    · have hf := find?_modify m id k (f := fun t => { t with text }) fun _ => rfl
      exact hf.trans (by rw [if_neg hne, ht])
  | updateStatus id u =>
    have hne : k ≠ id := fun e => hk (by simp [Request.id?, e])
    simp only [Memory.perform, updateStatus]
    split
    · exact ht
    split
    · exact ht
    · exact (find?_modify m id k u.applyTo_id).trans (by rw [if_neg hne, ht])
  | delete id =>
    have hne : k ≠ id := fun e => hk (by simp [Request.id?, e])
    exact (find?_delete m id k).trans (by rw [if_neg hne, ht])

end Memory

namespace Table

theorem find?_modifyWhere_of_ne (t : Table) {p : Row → Bool} {f : Row → Row} {k : Int}
    (hp : ∀ r, p r = true → r.id ≠ k) (hf : ∀ r, (f r).id = r.id) : (t.modifyWhere p f).find? k = t.find? k := by
  unfold find? modifyWhere
  dsimp only
  generalize t.rows = rows
  induction rows with
  | nil => rfl
  | cons a rows ih =>
    rw [List.map_cons, List.find?_cons, List.find?_cons, ih]
    by_cases ha : p a = true
    · have hne := hp a ha
      simp [ha, hf, hne]
    · simp [ha]

private theorem find?_delete_of_ne (t : Table) {id k : Int} (hk : k ≠ id) : (t.delete id).2.find? k = t.find? k := by
  unfold find? delete
  dsimp only
  generalize t.rows = rows
  induction rows with
  | nil => rfl
  | cons a rows ih =>
    by_cases ha : a.id = id
    · have hne : ¬ id = k := fun e => hk e.symm
      rw [List.filter_cons_of_neg (by simp [ha]), ih, List.find?_cons]
      simp [ha, hne]
    · rw [List.filter_cons_of_pos (by simp [ha]), List.find?_cons, List.find?_cons, ih]

theorem Ordered.find?_perform {t : Table} (h : t.Ordered) (now : Timestamp) {w : Request} {k : Int}
    (hk : w.id? ≠ some k) {row : Row} (hrow : t.find? k = some row) : (t.perform now w).2.find? k = some row := by
  cases w with
  | create new =>
    simp only [Table.perform, create]
    split
    · exact hrow
    · rename_i id hid
      rw [h.add_eq (nextId?_eq_some hid)]
      unfold find? at hrow ⊢
      rw [List.find?_append, hrow]
      rfl
  | get id => exact hrow
  | getFresh id => exact hrow
  | list => exact hrow
  | listByStatus status => exact hrow
  | updateText id text =>
    have hne : id ≠ k := fun e => hk (by simp [Request.id?, e])
    simp only [Table.perform, updateText]
    split
    · exact hrow
    · have hp (r : Row) (hr : decide (r.id = id) = true) : r.id ≠ k := by simp at hr; omega
      exact (find?_modifyWhere_of_ne t hp (f := fun r => { r with text := .text text }) fun _ => rfl).trans hrow
  | updateStatus id u =>
    have hne : id ≠ k := fun e => hk (by simp [Request.id?, e])
    simp only [Table.perform, updateStatus]
    split
    · have hp (r : Row) (hr : (decide (r.id = id) && r.admits u) = true) : r.id ≠ k := by simp at hr; omega
      exact (find?_modifyWhere_of_ne t hp (f := fun r => r.updated u) fun _ => rfl).trans hrow
    · exact hrow
  | delete id =>
    have hne : k ≠ id := fun e => hk (by simp [Request.id?, e])
    exact (find?_delete_of_ne t hne).trans hrow

end Table

namespace Backend

/-- A request that is no write leaves the store as it is, whatever the clock says. -/
theorem perform_of_not_isWrite (b : Backend) {r : Request} (hr : r.isWrite = false) (now now' : Timestamp) :
    b.perform now r = ((b.perform now' r).1, b) := by
  cases r <;> first | (cases hr; done) | (cases b <;> rfl)

private theorem get_memory (m : Memory) (now : Timestamp) (k : Int) :
    ((memory m).perform now (.get k)).1 = .ok (m.find? k) := rfl

private theorem get_table (t : Table) (now : Timestamp) (k : Int) :
    ((table t).perform now (.get k)).1 = t.get k := rfl

/-- A write leaves every stored task as it is that it does not name. -/
theorem Ordered.get_perform {b : Backend} (h : b.Ordered) (now : Timestamp) {w : Request} {k : Int}
    (hk : w.id? ≠ some k) {t : Task} {now' : Timestamp} (ht : (b.perform now' (.get k)).1 = .ok (some t)) :
    ((b.perform now w).2.perform now' (.get k)).1 = .ok (some t) := by
  cases b with
  | memory m =>
    rw [get_memory] at ht
    have hf : m.find? k = some t := by
      injection ht with ht
      injection ht
    show ((memory (m.perform now w).2).perform now' (.get k)).1 = _
    rw [get_memory, Memory.Ordered.find?_perform h now hk hf]
  | table tab =>
    rw [get_table] at ht
    show ((table (tab.perform now w).2).perform now' (.get k)).1 = _
    rw [get_table]
    cases hf : tab.find? k with
    | none =>
      rw [Table.get, hf] at ht
      injection ht with ht
      injection ht with ht
      cases ht
    | some row =>
      rw [Table.get, hf] at ht
      rw [Table.get, Table.Ordered.find?_perform h now hk hf]
      exact ht

end Backend

end Backlog.Store
