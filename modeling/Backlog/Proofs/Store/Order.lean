import Backlog.Store.Backend

/-!
# The order of a store

A store keeps its tasks in ascending order of identifier, and none lies above the last identifier that was given out.
Every request leaves it so.  An identifier therefore names at most one task, and the identifier of a new task was never
used before.

Key facts: what `find?` sees after each operation (`Memory.find?_modify`, `Memory.find?_create`,
`Memory.find?_delete`), and that the order is kept (`Backend.Ordered.perform`).
-/

namespace Backlog.Store

/-! ### Tasks in memory -/

namespace Memory

/-- The tasks are in ascending order of identifier, up to the last one that was given out. -/
structure Ordered (m : Memory) : Prop where
  ascending : m.tasks.Pairwise fun a b => a.id < b.id
  le_lastId : ∀ t ∈ m.tasks, t.id ≤ m.lastId

theorem ordered_empty : empty.Ordered := ⟨List.Pairwise.nil, fun _ h => by simp [empty] at h⟩

theorem id_of_find? {m : Memory} {id : Int} {t : Task} (h : m.find? id = some t) : t.id = id := by
  simpa using List.find?_some h

theorem mem_of_find? {m : Memory} {id : Int} {t : Task} (h : m.find? id = some t) : t ∈ m.tasks :=
  List.mem_of_find?_eq_some h

theorem Ordered.find?_of_mem {m : Memory} (h : m.Ordered) {t : Task} (ht : t ∈ m.tasks) : m.find? t.id = some t := by
  have hasc := h.ascending
  unfold find?
  generalize m.tasks = ts at hasc ht
  induction ts with
  | nil => simp at ht
  | cons a ts ih =>
    rw [List.pairwise_cons] at hasc
    rw [List.find?_cons]
    rcases List.mem_cons.1 ht with rfl | ht
    · simp
    · have hlt := hasc.1 t ht
      have hne : ¬ a.id = t.id := by omega
      simpa [hne] using ih hasc.2 ht

theorem find?_modify (m : Memory) (id j : Int) {f : Task → Task} (hf : ∀ t, (f t).id = t.id) :
    (m.modify id f).find? j = if j = id then (m.find? id).map f else m.find? j := by
  unfold find? modify
  dsimp only
  generalize m.tasks = ts
  induction ts with
  | nil => simp
  | cons a ts ih =>
    simp only [List.map_cons, List.find?_cons]
    by_cases hj : j = id
    · subst hj
      by_cases ha : a.id = j <;> simp_all
    · by_cases ha : a.id = id
      · have hne : ¬ id = j := fun e => hj e.symm
        simp_all
      · by_cases haj : a.id = j <;> simp_all

theorem Ordered.find?_eq_none {m : Memory} (h : m.Ordered) {id : Int} (hid : m.lastId < id) : m.find? id = none := by
  cases hf : m.find? id with
  | none => rfl
  | some t =>
    have hle := h.le_lastId t (mem_of_find? hf)
    rw [id_of_find? hf] at hle
    omega

theorem Ordered.find?_create {m : Memory} (h : m.Ordered) (now : Timestamp) (new : NewTask) (j : Int) :
    (m.create now new).2.find? j = if j = m.lastId + 1 then some (m.create now new).1 else m.find? j := by
  by_cases hj : j = m.lastId + 1
  · have hnone : m.find? (m.lastId + 1) = none := h.find?_eq_none (by omega)
    unfold find? at hnone
    simp [hj, find?, create, List.find?_append, hnone]
  · have hne : ¬ m.lastId + 1 = j := fun e => hj e.symm
    simp [hj, find?, create, List.find?_append, hne]

theorem find?_delete (m : Memory) (id j : Int) :
    (m.delete id).2.find? j = if j = id then none else m.find? j := by
  unfold find? delete
  dsimp only
  generalize m.tasks = ts
  induction ts with
  | nil => simp
  | cons a ts ih =>
    by_cases ha : a.id = id
    · rw [List.filter_cons_of_neg (by simp [ha]), ih, List.find?_cons]
      by_cases hj : j = id
      · simp [hj]
      · have hne : ¬ id = j := fun e => hj e.symm
        simp [hj, ha, hne]
    · rw [List.filter_cons_of_pos (by simp [ha]), List.find?_cons, ih, List.find?_cons]
      by_cases hj : j = id
      · simp [hj, ha]
      · simp [hj]

private theorem Ordered.modify {m : Memory} (h : m.Ordered) (id : Int) {f : Task → Task} (hf : ∀ t, (f t).id = t.id) :
    (m.modify id f).Ordered := by
  have hid (t : Task) : (if t.id = id then f t else t).id = t.id := by split <;> simp [hf]
  constructor
  · show List.Pairwise _ (m.tasks.map _)
    rw [List.pairwise_map]
    exact h.ascending.imp fun {a b} hab => by rw [hid, hid]; exact hab
  · intro t ht
    obtain ⟨a, ha, rfl⟩ := List.mem_map.1 ht
    rw [hid]
    exact h.le_lastId a ha

private theorem Ordered.create {m : Memory} (h : m.Ordered) (now : Timestamp) (new : NewTask) :
    (m.create now new).2.Ordered := by
  constructor
  · show List.Pairwise _ (m.tasks ++ [_])
    rw [List.pairwise_append]
    refine ⟨h.ascending, List.pairwise_singleton _ _, fun a ha b hb => ?_⟩
    have hle := h.le_lastId a ha
    rw [List.mem_singleton.1 hb]
    show a.id < m.lastId + 1
    omega
  · intro t ht
    show t.id ≤ m.lastId + 1
    rcases List.mem_append.1 ht with ht | ht
    · have hle := h.le_lastId t ht
      omega
    · obtain rfl := List.mem_singleton.1 ht
      exact Int.le_refl _

private theorem Ordered.delete {m : Memory} (h : m.Ordered) (id : Int) : (m.delete id).2.Ordered :=
  ⟨h.ascending.filter _, fun t ht => h.le_lastId t (List.mem_filter.1 ht).1⟩

theorem Ordered.perform {m : Memory} (h : m.Ordered) (now : Timestamp) (r : Request) :
    (m.perform now r).2.Ordered := by
  cases r with
  | create new => exact h.create now new
  | get id => exact h
  | getFresh id => exact h
  | list => exact h
  | listByStatus status => exact h
  | updateText id text =>
    simp only [Memory.perform, updateText]
    split
    · exact h
    · exact h.modify id fun _ => rfl
  | updateStatus id u =>
    simp only [Memory.perform, updateStatus]
    split
    · exact h
    split
    · exact h
    · exact h.modify id fun _ => rfl
  | delete id => exact h.delete id

end Memory

/-! ### Rows of a table -/

namespace Table

/-- The rows are in ascending order of identifier, up to the largest one ever used. -/
structure Ordered (t : Table) : Prop where
  ascending : t.rows.Pairwise fun a b => a.id < b.id
  le_lastId : ∀ r ∈ t.rows, r.id ≤ t.lastId

theorem insertRow_eq_append {rows : List Row} {row : Row} (h : ∀ r ∈ rows, r.id < row.id) :
    insertRow row rows = rows ++ [row] := by
  induction rows with
  | nil => rfl
  | cons a rows ih =>
    have ha := h a (by simp)
    have hlt : ¬ row.id < a.id := by omega
    simp [insertRow, hlt, ih fun r hr => h r (by simp [hr])]

/-- A new row stands at the end. -/
theorem Ordered.add_eq {t : Table} (h : t.Ordered) {row : Row} (hid : row.id = t.lastId + 1) :
    t.add row = { t with rows := t.rows ++ [row], lastId := t.lastId + 1 } := by
  have hlt : ∀ r ∈ t.rows, r.id < row.id := fun r hr => by
    have hle := h.le_lastId r hr
    omega
  have hmax : max t.lastId (t.lastId + 1) = t.lastId + 1 := by omega
  unfold add
  rw [insertRow_eq_append hlt, hid, hmax]

private theorem Ordered.modifyWhere {t : Table} (h : t.Ordered) (p : Row → Bool) {f : Row → Row}
    (hf : ∀ r, (f r).id = r.id) : (t.modifyWhere p f).Ordered := by
  have hid (r : Row) : (if p r then f r else r).id = r.id := by split <;> simp [hf]
  constructor
  · show List.Pairwise _ (t.rows.map _)
    rw [List.pairwise_map]
    exact h.ascending.imp fun {a b} hab => by rw [hid, hid]; exact hab
  · intro r hr
    obtain ⟨a, ha, rfl⟩ := List.mem_map.1 hr
    rw [hid]
    exact h.le_lastId a ha

private theorem Ordered.add {t : Table} (h : t.Ordered) {row : Row} (hid : row.id = t.lastId + 1) :
    (t.add row).Ordered := by
  rw [h.add_eq hid]
  constructor
  · show List.Pairwise _ (t.rows ++ [row])
    rw [List.pairwise_append]
    refine ⟨h.ascending, List.pairwise_singleton _ _, fun a ha b hb => ?_⟩
    have hle := h.le_lastId a ha
    rw [List.mem_singleton.1 hb]
    omega
  · intro r hr
    show r.id ≤ t.lastId + 1
    rcases List.mem_append.1 hr with hr | hr
    · have hle := h.le_lastId r hr
      omega
    · rw [List.mem_singleton.1 hr]
      exact Int.le_of_eq hid

theorem nextId?_eq_some {t : Table} {id : Int} (h : t.nextId? = some id) : id = t.lastId + 1 := by
  unfold nextId? at h
  split at h
  · exact (Option.some.inj h).symm
  · cases h

theorem Ordered.perform {t : Table} (h : t.Ordered) (now : Timestamp) (r : Request) :
    (t.perform now r).2.Ordered := by
  cases r with
  | create new =>
    simp only [Table.perform, create]
    split
    · exact h
    · rename_i id hid
      exact h.add (nextId?_eq_some hid)
  | get id => exact h
  | getFresh id => exact h
  | list => exact h
  | listByStatus status => exact h
  | updateText id text =>
    simp only [Table.perform, updateText]
    split
    · exact h
    · exact h.modifyWhere _ fun _ => rfl
  | updateStatus id u =>
    simp only [Table.perform, updateStatus]
    split
    · exact h.modifyWhere _ fun _ => rfl
    · exact h
  | delete id => exact ⟨h.ascending.filter _, fun r hr => h.le_lastId r (List.mem_filter.1 hr).1⟩

end Table

/-! ### Either kind -/

namespace Backend

/-- The tasks or rows of a store are in order. -/
def Ordered : Backend → Prop
  | memory m => m.Ordered
  | table t => t.Ordered

theorem Ordered.perform {b : Backend} (h : b.Ordered) (now : Timestamp) (r : Request) :
    (b.perform now r).2.Ordered := by
  cases b with
  | memory m => exact Memory.Ordered.perform h now r
  | table t => exact Table.Ordered.perform h now r

end Backend

end Backlog.Store
