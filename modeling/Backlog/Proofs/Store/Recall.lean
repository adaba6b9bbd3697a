import Backlog.Proofs.Store.Order

/-!
# What is known of a task that was seen earlier

Somebody has seen a task, and other callers have gone on.  The task may have been changed or removed since, but the
version that it had never comes back with other contents: a status change raises the version, a new text leaves it, and
an identifier is not given out twice.

Key facts: where a stored task comes from (`Memory.Ordered.origin`), and that what is known of a task and of a version
stays true whatever is asked of the store (`Memory.Recalls.perform`, `Memory.Passed.perform`).
-/

namespace Backlog

/-- A task is refused nothing that it may do from its status, unless another version was expected. -/
theorem StatusUpdate.refusal?_eq_none_iff {u : StatusUpdate} {t : Task} :
    u.refusal? t = none ↔ (∀ v, u.expectedVersion = some v → t.version = v) ∧ t.status.canMoveTo u.status = true := by
  unfold refusal?
  cases u.expectedVersion with
  | none => cases t.status.canMoveTo u.status <;> simp
  | some v =>
    by_cases hv : t.version = v
    · cases t.status.canMoveTo u.status <;> simp [hv]
    · simp [hv]

/-- A task may have become another one: its version has risen, or at most its text is new. -/
def Task.Onward (t t' : Task) : Prop := t.version < t'.version ∨ t' = { t with text := t'.text }

namespace Task.Onward

theorem refl (t : Task) : t.Onward t := .inr rfl

theorem version_le {t t' : Task} (h : t.Onward t') : t.version ≤ t'.version := by
  rcases h with h | h
  · omega
  · exact Int.le_of_eq (congrArg Task.version h).symm

theorem trans {t t' t'' : Task} (h : t.Onward t') (h' : t'.Onward t'') : t.Onward t'' := by
  rcases h with h | h
  · left
    have hle := h'.version_le
    omega
  · rcases h' with h' | h'
    · left
      rw [h] at h'
      exact h'
    · right
      rw [h] at h'
      exact h'

end Task.Onward

namespace Store.Memory

variable {m : Memory}

/-- A stored task is either new, or one that was stored before, changed as the request says. -/
theorem Ordered.origin (h : m.Ordered) (now : Timestamp) (r : Request) {id : Int} {t' : Task}
    (ht' : (m.perform now r).2.find? id = some t') :
    (∃ new, r = .create new ∧ id = m.lastId + 1 ∧ t' = (m.create now new).1) ∨
      ∃ t, m.find? id = some t ∧ (t' = t ∨ (∃ text, r = .updateText id text ∧ t' = { t with text }) ∨
        ∃ u, r = .updateStatus id u ∧ u.refusal? t = none ∧ t' = u.applyTo t) := by
  cases r with
  | create new =>
    have hfind := h.find?_create now new id
    rw [show (m.create now new).2.find? id = some t' from ht'] at hfind
    split at hfind
    · exact .inl ⟨new, rfl, by assumption, Option.some.inj hfind⟩
    · exact .inr ⟨t', hfind.symm, .inl rfl⟩
  | get k => exact .inr ⟨t', ht', .inl rfl⟩
  | getFresh k => exact .inr ⟨t', ht', .inl rfl⟩
  | list => exact .inr ⟨t', ht', .inl rfl⟩
  | listByStatus a => exact .inr ⟨t', ht', .inl rfl⟩
  | updateText k text =>
    -- a change of one task leaves the others as they are
    right
    simp only [Memory.perform, updateText] at ht'
    split at ht'
    · exact ⟨t', ht', .inl rfl⟩
    · rename_i t hk
      rw [find?_modify m k id (f := fun t => { t with text }) fun _ => rfl] at ht'
      split at ht'
      · rename_i hid
        subst hid
        rw [hk] at ht'
        exact ⟨t, hk, .inr (.inl ⟨text, rfl, (Option.some.inj ht').symm⟩)⟩
      · exact ⟨t', ht', .inl rfl⟩
  | updateStatus k u =>
    right
    simp only [Memory.perform, updateStatus] at ht'
    split at ht'
    · exact ⟨t', ht', .inl rfl⟩
    rename_i t hk
    split at ht'
    · exact ⟨t', ht', .inl rfl⟩
    rename_i hu
    rw [find?_modify m k id u.applyTo_id] at ht'
    split at ht'
    · rename_i hid
      subst hid
      rw [hk] at ht'
      exact ⟨t, hk, .inr (.inr ⟨u, rfl, hu, (Option.some.inj ht').symm⟩)⟩
    · exact ⟨t', ht', .inl rfl⟩
  | delete k =>
    rw [show (m.perform now (.delete k)).2.find? id = _ from find?_delete m k id] at ht'
    split at ht'
    · cases ht'
    · exact .inr ⟨t', ht', .inl rfl⟩

theorem lastId_le_perform (m : Memory) (now : Timestamp) (r : Request) : m.lastId ≤ (m.perform now r).2.lastId := by
  cases r with
  | create new =>
    show m.lastId ≤ m.lastId + 1
    omega
  | updateText k text =>
    simp only [Memory.perform, updateText]
    split <;> exact Int.le_refl _
  | updateStatus k u =>
    simp only [Memory.perform, updateStatus]
    split
    · exact Int.le_refl _
    · split <;> exact Int.le_refl _
  | _ => exact Int.le_refl _

/-- A task whose identifier was given out before was stored before, and has gone on from what it was. -/
theorem Ordered.onward_perform (h : m.Ordered) (now : Timestamp) (r : Request) {id : Int} (hid : id ≤ m.lastId)
    {t' : Task} (ht' : (m.perform now r).2.find? id = some t') : ∃ t, m.find? id = some t ∧ t.Onward t' := by
  rcases h.origin now r ht' with ⟨new, -, hnew, -⟩ | ⟨t, ht, rfl | ⟨text, -, rfl⟩ | ⟨u, -, -, rfl⟩⟩
  · omega
  · exact ⟨t', ht, .refl t'⟩
  · exact ⟨t, ht, .inr rfl⟩
  · refine ⟨t, ht, .inl ?_⟩
    rw [StatusUpdate.applyTo_version]
    omega

/-- What is known of a task that was seen earlier. -/
def Recalls (m : Memory) (t : Task) : Prop := t.id ≤ m.lastId ∧ ∀ t', m.find? t.id = some t' → t.Onward t'

/-- A task is not at a version any more, nor at any before it, and will not be. -/
def Passed (m : Memory) (id version : Int) : Prop :=
  id ≤ m.lastId ∧ ∀ t, m.find? id = some t → version < t.version

theorem Ordered.recalls_of_mem (h : m.Ordered) {t : Task} (ht : t ∈ m.tasks) : m.Recalls t := by
  refine ⟨h.le_lastId t ht, fun t' ht' => ?_⟩
  rw [h.find?_of_mem ht] at ht'
  cases ht'
  exact .refl t

theorem Recalls.perform {t : Task} (ht : m.Recalls t) (h : m.Ordered) (now : Timestamp) (r : Request) :
    (m.perform now r).2.Recalls t := by
  obtain ⟨hid, honward⟩ := ht
  have hlast := m.lastId_le_perform now r
  refine ⟨by omega, fun t'' ht'' => ?_⟩
  obtain ⟨t', ht', hstep⟩ := h.onward_perform now r hid ht''
  exact (honward t' ht').trans hstep

theorem Passed.perform {id version : Int} (hp : m.Passed id version) (h : m.Ordered) (now : Timestamp) (r : Request) :
    (m.perform now r).2.Passed id version := by
  obtain ⟨hid, hlt⟩ := hp
  have hlast := m.lastId_le_perform now r
  refine ⟨by omega, fun t' ht' => ?_⟩
  obtain ⟨t, ht, hstep⟩ := h.onward_perform now r hid ht'
  have hbefore := hlt t ht
  have hle := hstep.version_le
  omega

theorem find?_updateStatus {now : Timestamp} {id : Int} {u : StatusUpdate} {t : Task} (ht : m.find? id = some t)
    (hu : u.refusal? t = none) : (m.perform now (.updateStatus id u)).2.find? id = some (u.applyTo t) := by
  simp only [Memory.perform, updateStatus]
  rw [ht]
  dsimp only
  rw [hu]
  exact (find?_modify m id id u.applyTo_id).trans (by rw [if_pos rfl, ht]; rfl)

/-- With an update that is not refused the task passes the version that it had. -/
theorem Ordered.passed_of_admitted (h : m.Ordered) {now : Timestamp} {id : Int} {u : StatusUpdate} {t : Task}
    (ht : m.find? id = some t) (hu : u.refusal? t = none) :
    (m.perform now (.updateStatus id u)).2.Passed id t.version := by
  have hid := h.le_lastId t (mem_of_find? ht)
  rw [id_of_find? ht] at hid
  have hlast := m.lastId_le_perform now (.updateStatus id u)
  refine ⟨by omega, fun t' ht' => ?_⟩
  rw [find?_updateStatus ht hu] at ht'
  cases ht'
  rw [StatusUpdate.applyTo_version]
  omega

end Store.Memory

end Backlog
