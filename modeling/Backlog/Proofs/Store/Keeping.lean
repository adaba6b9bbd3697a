import Backlog.Proofs.Store.Footprint
import Backlog.Proofs.Store.Mirror

/-!
# One task of a store

A task is followed through the requests that are made of its store.  What else the store holds does not matter: its
other rows may even be such that no task can be read from them.

Key facts: a task that nobody moves or removes is kept, but for its text (`Backend.Retains.perform`); an update of its
status that it does not refuse is made (`Backend.Keeps.updateStatus`); and where a listing by status is answered it
shows the task if and only if the task has that status (`Backend.Ordered.listed`).
-/

namespace Backlog

/-- The same task, but for its text, and with its text if that is fixed. -/
def Task.Same (fixed : Prop) (t t' : Task) : Prop := ∃ text, (fixed → text = t.text) ∧ t' = { t with text }

theorem Task.Same.id {fixed : Prop} {t t' : Task} (h : t.Same fixed t') : t'.id = t.id := by
  obtain ⟨text, -, rfl⟩ := h
  rfl

theorem Task.Same.attempts {fixed : Prop} {t t' : Task} (h : t.Same fixed t') : t'.attempts = t.attempts := by
  obtain ⟨text, -, rfl⟩ := h
  rfl

/-- The numbers of a task are such as every store can hold and show. -/
structure Task.InRange (t : Task) : Prop extends t.HasRoom where
  attempts_le : t.attempts ≤ Store.Row.mostAttempts

namespace Store

open Sql

/-! ### Rows that can be read -/

theorem bind_eq_ok {α β : Type} {o : Outcome α} {f : α → Outcome β} {b : β} (h : o >>= f = .ok b) :
    ∃ a, o = .ok a ∧ f a = .ok b := by
  rcases o with (e | a) | text
  · cases h
  · exact ⟨a, rfl, h⟩
  · cases h

theorem Row.id_of_toTask {r : Row} {t : Task} (h : r.toTask = .ok t) : t.id = r.id := by
  unfold Row.toTask at h
  obtain ⟨_, -, h⟩ := bind_eq_ok h
  obtain ⟨_, -, h⟩ := bind_eq_ok h
  obtain ⟨_, -, h⟩ := bind_eq_ok h
  obtain ⟨_, -, h⟩ := bind_eq_ok h
  obtain ⟨_, -, h⟩ := bind_eq_ok h
  obtain ⟨_, -, h⟩ := bind_eq_ok h
  obtain ⟨_, -, h⟩ := bind_eq_ok h
  obtain ⟨_, -, h⟩ := bind_eq_ok h
  obtain ⟨_, -, h⟩ := bind_eq_ok h
  cases h
  rfl

private theorem forall₂_of_toTasks {rows : List Row} {ts : List Task} (h : Row.toTasks rows = .ok ts) :
    List.Forall₂ (fun r t => r.toTask = .ok t) rows ts := by
  induction rows generalizing ts with
  | nil =>
    cases h
    exact .nil
  | cons r rows ih =>
    rw [Row.toTasks] at h
    obtain ⟨t, ht, h⟩ := bind_eq_ok h
    obtain ⟨rest, hrest, h⟩ := bind_eq_ok h
    cases h
    exact .cons ht (ih hrest)

private theorem map_id_of_toTasks {rows : List Row} {ts : List Task} (h : Row.toTasks rows = .ok ts) :
    ts.map Task.id = rows.map Row.id := by
  have hread := forall₂_of_toTasks h
  clear h
  induction hread with
  | nil => rfl
  | cons hr _ ih => rw [List.map_cons, List.map_cons, ih, Row.id_of_toTask hr]

theorem exists_task_of_toTasks {rows : List Row} {ts : List Task} (h : Row.toTasks rows = .ok ts) {r : Row}
    (hr : r ∈ rows) : ∃ t ∈ ts, r.toTask = .ok t := by
  have hread := forall₂_of_toTasks h
  clear h
  induction hread with
  | nil => cases hr
  | @cons r' t rows ts ht _ ih =>
    rcases List.mem_cons.1 hr with rfl | hr
    · exact ⟨t, List.mem_cons_self, ht⟩
    · obtain ⟨t', hmem, ht'⟩ := ih hr
      exact ⟨t', List.mem_cons_of_mem _ hmem, ht'⟩

theorem exists_row_of_toTasks {rows : List Row} {ts : List Task} (h : Row.toTasks rows = .ok ts) {t : Task}
    (ht : t ∈ ts) : ∃ r ∈ rows, r.toTask = .ok t := by
  have hread := forall₂_of_toTasks h
  clear h
  induction hread with
  | nil => cases ht
  | @cons r t' rows ts hr _ ih =>
    rcases List.mem_cons.1 ht with rfl | ht
    · exact ⟨r, List.mem_cons_self, hr⟩
    · obtain ⟨r', hmem, hr'⟩ := ih ht
      exact ⟨r', List.mem_cons_of_mem _ hmem, hr'⟩

namespace Table

theorem Ordered.find?_of_mem {tab : Table} (h : tab.Ordered) {r : Row} (hr : r ∈ tab.rows) :
    tab.find? r.id = some r := by
  have hasc := h.ascending
  unfold find?
  generalize tab.rows = rows at hasc hr
  induction rows with
  | nil => cases hr
  | cons a rows ih =>
    rw [List.pairwise_cons] at hasc
    rw [List.find?_cons]
    rcases List.mem_cons.1 hr with rfl | hr
    · simp
    · have hlt := hasc.1 r hr
      have hne : ¬ a.id = r.id := by omega
      simpa [hne] using ih hasc.2 hr

theorem find?_modifyWhere {tab : Table} {p : Row → Bool} {f : Row → Row} {id : Int} {r : Row}
    (hr : tab.find? id = some r) (hp : p r = true) (hid : ∀ r, p r = true → r.id = id) (hf : ∀ r, (f r).id = r.id) :
    (tab.modifyWhere p f).find? id = some (f r) := by
  unfold find? modifyWhere at *
  dsimp only
  generalize tab.rows = rows at hr
  induction rows with
  | nil => cases hr
  | cons a rows ih =>
    rw [List.find?_cons] at hr
    rw [List.map_cons, List.find?_cons]
    by_cases ha : a.id = id
    · simp only [ha, decide_true, Option.some.injEq] at hr
      subst hr
      simp [hp, hf, ha]
    · have hnot : ¬ p a = true := fun hpa => ha (hid a hpa)
      simp only [ha, decide_false] at hr
      simpa [hnot, ha] using ih hr

end Table

/-! ### A task that is kept -/

/-- The request neither moves nor removes the task with an identifier, and leaves its text alone if that is fixed. -/
def Request.Spares (fixed : Prop) (id : Int) : Request → Prop
  | updateText j _ => fixed → j ≠ id
  | updateStatus j _ => j ≠ id
  | delete j => j ≠ id
  | _ => True

namespace Backend

/-- The store keeps a task: it is in memory, or a row of the table shows it. -/
def Keeps : Backend → Task → Prop
  | memory m, t => m.find? t.id = some t
  | table tab, t => ∃ r, tab.find? t.id = some r ∧ r.Shows t

/-- The store keeps a task, but for its text, and with its text if that is fixed. -/
def Retains (b : Backend) (fixed : Prop) (t : Task) : Prop := ∃ t', t.Same fixed t' ∧ b.Keeps t'

variable {b : Backend} {fixed : Prop} {t : Task}

theorem Keeps.retains (h : b.Keeps t) : b.Retains fixed t := ⟨t, ⟨t.text, fun _ => rfl, rfl⟩, h⟩

theorem Keeps.get (h : b.Keeps t) (wall : Timestamp) : b.perform wall (.get t.id) = (.ok (some (b.shows t)), b) := by
  cases b with
  | memory m =>
    show (Outcome.ok (m.find? t.id), memory m) = _
    rw [show m.find? t.id = some t from h]
    rfl
  | table tab =>
    obtain ⟨r, hr, hshows⟩ := h
    show (tab.get t.id, table tab) = _
    unfold Table.get
    rw [hr]
    dsimp only
    rw [hshows.toTask]
    rfl

/-- In a store every number of which is small enough a task is shown as it is. -/
theorem shows_eq_self (b : Backend) (h : t.attempts ≤ Row.mostAttempts) : b.shows t = t := by
  have hattempts := b.shows_attempts h
  cases b with
  | memory m => rfl
  | table tab =>
    show { t with attempts := Row.attemptsOf t.attempts } = t
    rw [show Row.attemptsOf t.attempts = t.attempts from hattempts]

/-- A task that is kept can be read. -/
theorem Retains.get (h : b.Retains fixed t) (hattempts : t.attempts ≤ Row.mostAttempts) :
    ∃ u, t.Same fixed u ∧ ∀ wall, b.perform wall (.get t.id) = (.ok (some u), b) := by
  obtain ⟨_, ⟨text, htext, rfl⟩, hkeeps⟩ := h
  have hshown : b.shows { t with text } = { t with text } := b.shows_eq_self hattempts
  refine ⟨_, ⟨text, htext, rfl⟩, fun wall => ?_⟩
  rw [← hshown]
  exact hkeeps.get wall

/-- A task is kept by a request that does not name it. -/
theorem Keeps.perform_of_ne (h : b.Keeps t) (hb : b.Ordered) (wall : Timestamp) {r : Request} (hr : r.id? ≠ some t.id) :
    (b.perform wall r).2.Keeps t := by
  cases b with
  | memory m => exact Memory.Ordered.find?_perform hb wall hr h
  | table tab =>
    obtain ⟨row, hrow, hshows⟩ := h
    exact ⟨row, Table.Ordered.find?_perform hb wall hr hrow, hshows⟩

theorem Keeps.updateText (h : b.Keeps t) (wall : Timestamp) (text : String) :
    (b.perform wall (.updateText t.id text)).2.Keeps { t with text := b.textOf text } := by
  cases b with
  | memory m =>
    have hfind : m.find? t.id = some t := h
    simp only [Backend.perform, Memory.perform, Memory.updateText, hfind]
    have hmodify := m.find?_modify t.id t.id (f := fun t => { t with text }) fun _ => rfl
    rw [if_pos rfl, hfind] at hmodify
    exact hmodify
  | table tab =>
    obtain ⟨row, hrow, hshows⟩ := h
    have hid : row.id = t.id := hshows.id
    simp only [Backend.perform, Table.perform, Table.updateText, hrow]
    refine ⟨{ row with text := .text text }, ?_, { hshows with text := ⟨text, rfl, rfl⟩ }⟩
    exact Table.find?_modifyWhere hrow (by simpa using hid) (fun r hr => by simpa using hr) fun _ => rfl

/-- A task that a request spares is kept, but for its text. -/
theorem Retains.perform (h : b.Retains fixed t) (hb : b.Ordered) (wall : Timestamp) {r : Request}
    (hr : r.Spares fixed t.id) : (b.perform wall r).2.Retains fixed t := by
  obtain ⟨_, ⟨text, htext, rfl⟩, hkeeps⟩ := h
  by_cases hid : r.id? = some t.id
  · cases r with
    | updateText id new =>
      obtain rfl := Option.some.inj hid
      exact ⟨_, ⟨_, fun hfixed => absurd rfl (hr hfixed), rfl⟩, hkeeps.updateText wall new⟩
    | updateStatus id u => exact absurd (Option.some.inj hid) hr
    | delete id => exact absurd (Option.some.inj hid) hr
    | create new => cases hid
    | list => cases hid
    | listByStatus a => cases hid
    | get id =>
      rw [b.perform_of_not_isWrite rfl wall wall]
      exact ⟨_, ⟨text, htext, rfl⟩, hkeeps⟩
    | getFresh id =>
      rw [b.perform_of_not_isWrite rfl wall wall]
      exact ⟨_, ⟨text, htext, rfl⟩, hkeeps⟩
  · exact ⟨_, ⟨text, htext, rfl⟩, hkeeps.perform_of_ne hb wall hid⟩

theorem Keeps.updateStatus (h : b.Keeps t) (room : t.HasRoom) (wall : Timestamp) {u : StatusUpdate}
    (hu : u.refusal? t = none) :
    (b.perform wall (.updateStatus t.id u)).1 = .ok () ∧
      (b.perform wall (.updateStatus t.id u)).2.Keeps ((u.adjusted b.timeOf).applyTo t) := by
  cases b with
  | memory m =>
    have hfind : m.find? t.id = some t := h
    have hsame : u.adjusted (memory m).timeOf = u := by simp [StatusUpdate.adjusted, timeOf]
    rw [hsame]
    simp only [Backend.perform, Memory.perform, Memory.updateStatus, hfind, hu]
    refine ⟨rfl, ?_⟩
    have hmodify := m.find?_modify t.id t.id u.applyTo_id
    rw [if_pos rfl, hfind] at hmodify
    exact hmodify
  | table tab =>
    obtain ⟨row, hrow, hshows⟩ := h
    have hid : row.id = t.id := hshows.id
    have hhit : (decide (row.id = t.id) && row.admits u) = true := by simp [hid, (hshows.admits_iff u).2 hu]
    have hany : (tab.rows.any fun r => decide (r.id = t.id) && r.admits u) = true :=
      List.any_eq_true.2 ⟨row, List.mem_of_find?_eq_some hrow, hhit⟩
    simp only [Backend.perform, Table.perform, Table.updateStatus]
    rw [if_pos hany]
    refine ⟨rfl, row.updated u, ?_, hshows.updated u room⟩
    exact Table.find?_modifyWhere hrow hhit (fun r hr => by simp at hr; exact hr.1) fun _ => rfl

/-! ### Listings -/

/-- A listing by status is in ascending order of identifier, and it shows a task that is kept if and only if the task
has that status. -/
theorem Ordered.listed (hb : b.Ordered) {wall : Timestamp} {a : Status} {ts : List Task}
    (h : (b.perform wall (.listByStatus a)).1 = .ok ts) :
    (ts.Pairwise fun c d => c.id < d.id) ∧ ∀ t, b.Keeps t →
      (t.status = a → b.shows t ∈ ts) ∧ ∀ c ∈ ts, c.id = t.id → c = b.shows t ∧ t.status = a := by
  cases b with
  | memory m =>
    cases h
    refine ⟨hb.ascending.filter _, fun t ht => ⟨fun hstatus => ?_, fun c hc hid => ?_⟩⟩
    · exact List.mem_filter.2 ⟨Memory.mem_of_find? ht, by simpa using hstatus⟩
    · obtain ⟨hmem, hstatus⟩ := List.mem_filter.1 hc
      have hfind := Memory.Ordered.find?_of_mem hb hmem
      rw [hid, show m.find? t.id = some t from ht] at hfind
      obtain rfl := Option.some.inj hfind
      exact ⟨rfl, by simpa using hstatus⟩
  | table tab =>
    have hread : Row.toTasks (tab.rows.filter fun r => r.status = .text a.name) = .ok ts := h
    refine ⟨?_, fun t ht => ?_⟩
    · have hasc := List.pairwise_map.2 (hb.ascending.filter fun r => r.status = .text a.name)
      rw [← map_id_of_toTasks hread] at hasc
      exact List.pairwise_map.1 hasc
    · obtain ⟨row, hrow, hshows⟩ := ht
      refine ⟨fun hstatus => ?_, fun c hc hid => ?_⟩
      · have hmem : row ∈ tab.rows.filter fun r => r.status = .text a.name :=
          List.mem_filter.2 ⟨List.mem_of_find?_eq_some hrow, by simp [hshows.status, hstatus]⟩
        obtain ⟨c, hc, hrowc⟩ := exists_task_of_toTasks hread hmem
        rw [hshows.toTask] at hrowc
        cases hrowc
        exact hc
      · obtain ⟨row', hmem, hrowc⟩ := exists_row_of_toTasks hread hc
        obtain ⟨hmem, hstatus⟩ := List.mem_filter.1 hmem
        -- only one row has the identifier
        have hfind := Table.Ordered.find?_of_mem hb hmem
        rw [← Row.id_of_toTask hrowc, hid, hrow] at hfind
        obtain rfl := Option.some.inj hfind
        rw [hshows.toTask] at hrowc
        cases hrowc
        rw [hshows.status] at hstatus
        exact ⟨rfl, Status.name_injective (by simpa using hstatus)⟩

end Backend

end Store

end Backlog
