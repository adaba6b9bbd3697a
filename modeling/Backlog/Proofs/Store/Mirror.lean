import Backlog.Proofs.Store.Order
import Mathlib.Data.List.Forall2

/-!
# A table mirrors a store in memory

Every table that comes from requests to a fresh database stands for a store in memory: its rows show the tasks of that
store one by one, and it gives out the same identifiers.  It differs in what it hears and shows: texts are read up to
their first zero character, times go through their written form, and a number of attempts is shown as the largest one
if it is too large.

Key facts: a row that shows a task is read as that task (`Row.Shows.toTask`), and a table answers a request as the
store does that it mirrors, and mirrors what the request makes of that store, as long as the numbers fit into 64 bits
(`Backend.Represents.perform`).
-/

namespace Backlog

/-- A moment after it has been written into a row and read from there. -/
def Timestamp.asStored (t : Timestamp) : Timestamp := .ofStored (Store.Row.readable t.storedText)

/-- The task as it is read from a row, where a number of attempts that is too large is shown as the largest one. -/
def Task.capped (t : Task) : Task := { t with attempts := Store.Row.attemptsOf t.attempts }

/-- The update with something done to its moments. -/
def StatusUpdate.adjusted (time : Timestamp → Timestamp) (u : StatusUpdate) : StatusUpdate :=
  { u with startedAt := u.startedAt.map time, endedAt := u.endedAt.map time }

open Sql in
/-- The numbers of a task fit into a row, also when its status has changed once more. -/
structure Task.HasRoom (t : Task) : Prop where
  least_le : leastInteger ≤ t.version
  lt_most : t.version < mostInteger
  attempts_lt : (t.attempts : Int) < mostInteger

open Sql in
theorem Task.hasRoom_of_attempts_le {t : Task} (hle : (t.attempts : Int) ≤ t.version) (hlt : t.version < mostInteger) :
    t.HasRoom := by
  refine ⟨?_, hlt, Int.lt_of_le_of_lt hle hlt⟩
  unfold leastInteger
  omega

namespace Store

open Sql

/-! ### A row shows a task -/

namespace Row

/-- A cell from which an optional moment is read. -/
inductive ShowsTime : Cell → Option Timestamp → Prop where
  | none : ShowsTime .null none
  | some {s : String} (h : (readable s).isEmpty = false) : ShowsTime (.text s) (some (.ofStored (readable s)))

/-- A row from which a task is read. -/
structure Shows (r : Row) (t : Task) : Prop where
  id : r.id = t.id
  text : ∃ s, r.text = .text s ∧ readable s = t.text
  status : r.status = .text t.status.name
  userId : ∃ s, r.userId = .text s ∧ readable s = t.userId
  createdAt : ∃ s, r.createdAt = .text s ∧ .ofStored (readable s) = t.createdAt
  startedAt : ShowsTime r.startedAt t.startedAt
  endedAt : ShowsTime r.endedAt t.endedAt
  version : r.version = .integer t.version
  attempts : r.attempts = .integer t.attempts

theorem readable_name (a : Status) : readable a.name = a.name := by cases a <;> decide

theorem readStatus_name (id : Int) (a : Status) : readStatus id a.name = .ok a := by
  unfold readStatus
  rw [Status.ofName?_name]

private theorem ShowsTime.read {c : Cell} {o : Option Timestamp} (h : ShowsTime c o) :
    ∃ s, optionalText c = .ok s ∧ timeOfText? s = o := by
  cases h with
  | none => exact ⟨Option.none, rfl, rfl⟩
  | some h => exact ⟨_, rfl, by simp [timeOfText?, h]⟩

theorem ok_bind {α β : Type} (a : α) (f : α → Outcome β) : Outcome.ok a >>= f = f a := rfl

theorem Shows.toTask {r : Row} {t : Task} (h : r.Shows t) : r.toTask = .ok t.capped := by
  obtain ⟨text, htext, rtext⟩ := h.text
  obtain ⟨user, huser, ruser⟩ := h.userId
  obtain ⟨created, hcreated, rcreated⟩ := h.createdAt
  obtain ⟨started, hstarted, rstarted⟩ := h.startedAt.read
  obtain ⟨ended, hended, rended⟩ := h.endedAt.read
  have hstatus : requiredText "status" r.status = .ok t.status.name := by
    rw [h.status, requiredText, readable_name]
  unfold Row.toTask
  rw [hstatus, hstarted, hended, htext, huser, hcreated, h.version, h.attempts]
  simp only [requiredText, optionalText, counter, ok_bind, readStatus_name]
  rw [rtext, rcreated, rstarted, rended, Option.getD_some, ruser, h.id]
  rfl

/-! ### An update of a row -/

private theorem padded_head (width n : Nat) : ∃ c l, Timestamp.padded width n = c :: l ∧ c ≠ '\x00' := by
  have hdigits : Nat.toDigits 10 n ≠ [] := Nat.toDigits_ne_nil
  unfold Timestamp.padded
  dsimp only
  cases width - (Nat.toDigits 10 n).length with
  | zero =>
    obtain ⟨c, l, hl⟩ := List.exists_cons_of_ne_nil hdigits
    have hdigit : c.isDigit = true :=
      Nat.isDigit_of_mem_toDigits (b := 10) (n := n) (by decide) (by decide) (by simp [hl])
    refine ⟨c, l, by rw [List.replicate_zero, List.nil_append, hl], ?_⟩
    rintro rfl
    exact absurd hdigit (by decide)
  | succ k => exact ⟨'0', _, by rw [List.replicate_succ, List.cons_append], by decide⟩

private theorem yearText_head (year : Int) : ∃ c l, Timestamp.yearText year = c :: l ∧ c ≠ '\x00' := by
  unfold Timestamp.yearText
  split
  · exact padded_head 4 _
  · split
    · exact ⟨'+', _, rfl, by decide⟩
    · exact ⟨'-', _, rfl, by decide⟩

theorem isEmpty_storedText (t : Timestamp) : (readable t.storedText).isEmpty = false := by
  obtain ⟨c, l, hl, hc⟩ := yearText_head t.date.year
  have hstored : t.storedText.toList.takeWhile (fun c => c ≠ '\x00') ≠ [] := by
    simp [Timestamp.storedText, Timestamp.localText, Timestamp.dateText, hl, hc]
  rw [Bool.eq_false_iff]
  intro h
  rw [String.isEmpty_iff, readable] at h
  exact hstored (by simpa using congrArg String.toList h)

private theorem showsTime_orElse {c : Cell} {o : Option Timestamp} (h : ShowsTime c o) (new : Option Timestamp) :
    ShowsTime (((new.map fun t => Cell.text t.storedText).getD .null).orElse c)
      ((new.map Timestamp.asStored).or o) := by
  cases new with
  | none => exact h
  | some t => exact .some (isEmpty_storedText t)

theorem Shows.admits_iff {r : Row} {t : Task} (h : r.Shows t) (u : StatusUpdate) :
    r.admits u = true ↔ u.refusal? t = none := by
  have hstatus : (u.status.predecessors.any fun s => r.status = .text s.name) = t.status.canMoveTo u.status := by
    rw [h.status, Bool.eq_iff_iff, List.any_eq_true, ← Status.mem_predecessors_iff]
    constructor
    · rintro ⟨a, ha, hname⟩
      have hsame : t.status.name = a.name := by simpa using hname
      rwa [Status.name_injective hsame]
    · exact fun ha => ⟨t.status, ha, by simp⟩
  unfold admits StatusUpdate.refusal?
  rw [hstatus, h.version]
  cases u.expectedVersion with
  | none => cases t.status.canMoveTo u.status <;> simp
  | some v =>
    by_cases hv : t.version = v
    · cases t.status.canMoveTo u.status <;> simp [hv]
    · simp [hv]

theorem Shows.updated {r : Row} {t : Task} (h : r.Shows t) (u : StatusUpdate) (room : t.HasRoom) :
    (r.updated u).Shows ((u.adjusted Timestamp.asStored).applyTo t) where
  id := h.id
  text := h.text
  status := rfl
  userId := h.userId
  createdAt := h.createdAt
  startedAt := showsTime_orElse h.startedAt u.startedAt
  endedAt := showsTime_orElse h.endedAt u.endedAt
  version := by
    -- beyond 64 bits the sum would be stored as a real number
    have hfits : leastInteger ≤ t.version + 1 ∧ t.version + 1 ≤ mostInteger := by
      have hleast := room.least_le
      have hmost := room.lt_most
      omega
    show ((r.version.plus 1).keptAs .integer) = _
    rw [h.version, Cell.plus_integer hfits]
    rfl
  attempts := by
    have hfits (n : Int) (hn : n = 0 ∨ n = 1) : leastInteger ≤ t.attempts + n ∧ t.attempts + n ≤ mostInteger := by
      have hmost := room.attempts_lt
      unfold leastInteger
      omega
    show ((r.attempts.plus (if u.status = .processing then 1 else 0)).keptAs .integer) =
      .integer ((if u.status = .processing then t.attempts + 1 else t.attempts : Nat) : Int)
    rw [h.attempts]
    split
    · rw [Cell.plus_integer (hfits 1 (.inr rfl))]
      rfl
    · rw [Cell.plus_integer (hfits 0 (.inl rfl)), Int.add_zero]
      rfl

end Row

/-! ### A table mirrors a store in memory -/

namespace Table

/-- A table with the columns of a fresh database whose rows show the tasks of a store in memory. -/
structure Mirrors (tab : Table) (m : Memory) : Prop where
  columns : tab.columns = currentColumns
  lastId : tab.lastId = m.lastId
  rows : List.Forall₂ Row.Shows tab.rows m.tasks

theorem mirrors_fresh : fresh.Mirrors .empty := ⟨rfl, rfl, .nil⟩

variable {tab : Table} {m : Memory}

private theorem map_id_of_shows {rows : List Row} {tasks : List Task} (h : List.Forall₂ Row.Shows rows tasks) :
    rows.map Row.id = tasks.map Task.id := by
  induction h with
  | nil => rfl
  | cons hrow _ ih => rw [List.map_cons, List.map_cons, ih, hrow.id]

private theorem Mirrors.exists_task (h : tab.Mirrors m) {r : Row} (hr : r ∈ tab.rows) :
    ∃ t ∈ m.tasks, r.Shows t := by
  have hrows := h.rows
  generalize tab.rows = rows at hr hrows
  generalize m.tasks = tasks at hrows
  induction hrows with
  | nil => exact absurd hr List.not_mem_nil
  | @cons r' t rows tasks hrow _ ih =>
    rcases List.mem_cons.1 hr with rfl | hr
    · exact ⟨t, by simp, hrow⟩
    · obtain ⟨s, hs, hshows⟩ := ih hr
      exact ⟨s, by simp [hs], hshows⟩

theorem Mirrors.ordered (h : tab.Mirrors m) (hm : m.Ordered) : tab.Ordered := by
  have hids := map_id_of_shows h.rows
  constructor
  · have hasc : (m.tasks.map Task.id).Pairwise (· < ·) := List.pairwise_map.2 hm.ascending
    rw [← hids] at hasc
    exact List.pairwise_map.1 hasc
  · intro r hr
    have hid : r.id ∈ m.tasks.map Task.id := hids ▸ List.mem_map_of_mem hr
    obtain ⟨t, ht, he⟩ := List.mem_map.1 hid
    rw [← he, h.lastId]
    exact hm.le_lastId t ht

private theorem find?_of_shows {rows : List Row} {tasks : List Task} (h : List.Forall₂ Row.Shows rows tasks)
    (id : Int) :
    (rows.find? (fun r => r.id = id) = none ∧ tasks.find? (fun t => t.id = id) = none) ∨
      ∃ r t, rows.find? (fun r => r.id = id) = some r ∧ tasks.find? (fun t => t.id = id) = some t ∧ r.Shows t := by
  induction h with
  | nil => exact .inl ⟨rfl, rfl⟩
  | @cons r t rows tasks hrow _ ih =>
    rw [List.find?_cons, List.find?_cons, hrow.id]
    by_cases hid : t.id = id
    · exact .inr ⟨r, t, by simp [hid], by simp [hid], hrow⟩
    · simpa [hid] using ih

/-- The row with an identifier shows the task with it. -/
theorem Mirrors.find? (h : tab.Mirrors m) (id : Int) :
    (tab.find? id = none ∧ m.find? id = none) ∨
      ∃ r t, tab.find? id = some r ∧ m.find? id = some t ∧ r.Shows t := find?_of_shows h.rows id

theorem Mirrors.get (h : tab.Mirrors m) (id : Int) : tab.get id = .ok ((m.find? id).map Task.capped) := by
  unfold Table.get
  rcases h.find? id with ⟨hr, ht⟩ | ⟨r, t, hr, ht, hshows⟩
  · rw [hr, ht]
    rfl
  · rw [hr, ht]
    dsimp only
    rw [hshows.toTask]
    rfl

private theorem toTasks_of_shows {rows : List Row} {tasks : List Task} (h : List.Forall₂ Row.Shows rows tasks) :
    Row.toTasks rows = .ok (tasks.map Task.capped) := by
  induction h with
  | nil => rfl
  | cons hrow _ ih =>
    rw [Row.toTasks, hrow.toTask, ih]
    rfl

theorem Mirrors.list (h : tab.Mirrors m) : Row.toTasks tab.rows = .ok (m.tasks.map Task.capped) :=
  toTasks_of_shows h.rows

private theorem filter_of_shows {rows : List Row} {tasks : List Task} (h : List.Forall₂ Row.Shows rows tasks)
    {p : Row → Bool} {q : Task → Bool} (hpq : ∀ r t, r.Shows t → p r = q t) :
    List.Forall₂ Row.Shows (rows.filter p) (tasks.filter q) := by
  induction h with
  | nil => exact .nil
  | @cons r t rows tasks hrow _ ih =>
    have hsame := hpq r t hrow
    cases hq : q t with
    | true =>
      rw [List.filter_cons_of_pos (hsame.trans hq), List.filter_cons_of_pos hq]
      exact .cons hrow ih
    | false =>
      rw [List.filter_cons_of_neg (by simp [hsame, hq]), List.filter_cons_of_neg (by simp [hq])]
      exact ih

theorem Mirrors.withStatus (h : tab.Mirrors m) (a : Status) :
    tab.withStatus a = .ok ((m.withStatus a).map Task.capped) := by
  refine toTasks_of_shows (filter_of_shows h.rows fun r t hrow => ?_)
  rw [hrow.status, decide_eq_decide]
  constructor
  · intro hname
    injection hname with hname
    exact Status.name_injective hname
  · rintro rfl
    rfl

private theorem map_of_shows {rows : List Row} {tasks : List Task} (h : List.Forall₂ Row.Shows rows tasks)
    {f : Row → Row} {g : Task → Task} (hfg : ∀ r, ∀ t ∈ tasks, r.Shows t → (f r).Shows (g t)) :
    List.Forall₂ Row.Shows (rows.map f) (tasks.map g) := by
  induction h with
  | nil => exact .nil
  | @cons r t rows tasks hrow _ ih =>
    rw [List.map_cons, List.map_cons]
    exact .cons (hfg r t (by simp) hrow) (ih fun r t ht => hfg r t (by simp [ht]))

/-! ### Writes to a table -/

/-- The columns of a fresh database leave the moments of a new row open and its numbers at zero. -/
private theorem Mirrors.defaults (h : tab.Mirrors m) :
    tab.default "started_at" = .null ∧ tab.default "ended_at" = .null ∧ tab.default "version" = .integer 0 ∧
      tab.default "attempts" = .integer 0 := by
  unfold Table.default
  rw [h.columns]
  exact ⟨rfl, rfl, rfl, rfl⟩

theorem Mirrors.create (h : tab.Mirrors m) (hm : m.Ordered) (now : Timestamp) (new : NewTask)
    (room : m.lastId < mostInteger) :
    (tab.create now new).1 =
        .ok (m.create now.asStored ⟨Row.readable new.text, Row.readable new.userId⟩).1.capped ∧
      (tab.create now new).2.Mirrors (m.create now.asStored ⟨Row.readable new.text, Row.readable new.userId⟩).2 := by
  have hnext : tab.nextId? = some (m.lastId + 1) := by
    unfold nextId?
    rw [h.lastId, if_pos room]
  obtain ⟨hstarted, hended, hversion, hattempts⟩ := h.defaults
  unfold Table.create
  rw [hnext, hstarted, hended, hversion, hattempts]
  dsimp only
  generalize hrow : Row.mk (m.lastId + 1) _ _ _ _ _ _ _ _ = row
  have hshows : row.Shows ⟨m.lastId + 1, Row.readable new.text, .pending, now.asStored, none, none,
      Row.readable new.userId, 0, 0⟩ := by
    subst hrow
    refine ⟨rfl, ⟨_, rfl, rfl⟩, rfl, ⟨_, rfl, rfl⟩, ⟨_, rfl, ?_⟩, .none, .none, rfl, rfl⟩
    rw [Timestamp.asStored]
  refine ⟨hshows.toTask, ?_⟩
  have hid : row.id = tab.lastId + 1 := by rw [hshows.id, h.lastId]
  rw [(h.ordered hm).add_eq hid]
  refine ⟨h.columns, ?_, List.rel_append h.rows (.cons hshows .nil)⟩
  show tab.lastId + 1 = m.lastId + 1
  rw [h.lastId]

theorem Mirrors.create_of_full (h : tab.Mirrors m) (now : Timestamp) (new : NewTask) (full : ¬ m.lastId < mostInteger) :
    (∃ e, (tab.create now new).1 = .error e) ∧ (tab.create now new).2 = tab := by
  have hnext : tab.nextId? = none := by
    unfold nextId?
    rw [h.lastId, if_neg full]
  unfold Table.create
  rw [hnext]
  exact ⟨⟨_, rfl⟩, rfl⟩

theorem Mirrors.updateText (h : tab.Mirrors m) (id : Int) (text : String) :
    (tab.updateText id text).1 = .answered (m.updateText id (Row.readable text)).1 ∧
      (tab.updateText id text).2.Mirrors (m.updateText id (Row.readable text)).2 := by
  unfold Table.updateText Memory.updateText
  rcases h.find? id with ⟨hr, ht⟩ | ⟨r, t, hr, ht, -⟩
  · rw [hr, ht]
    exact ⟨rfl, h⟩
  · rw [hr, ht]
    refine ⟨rfl, h.columns, h.lastId, map_of_shows h.rows fun r t _ hrow => ?_⟩
    by_cases hid : t.id = id
    · rw [if_pos (by simpa [hrow.id] using hid), if_pos hid]
      exact { hrow with text := ⟨text, rfl, rfl⟩ }
    · rw [if_neg (by simpa [hrow.id] using hid), if_neg hid]
      exact hrow

/-- An update changes a row of the table if and only if the store does not refuse it. -/
private theorem Mirrors.any_hit_iff (h : tab.Mirrors m) (hm : m.Ordered) (id : Int) (u : StatusUpdate) :
    (tab.rows.any fun r => r.id = id && r.admits u) = true ↔ ∃ t, m.find? id = some t ∧ u.refusal? t = none := by
  rw [List.any_eq_true]
  constructor
  · rintro ⟨r, hr, hhit⟩
    obtain ⟨hid, hadmits⟩ : r.id = id ∧ r.admits u = true := by simpa using hhit
    obtain ⟨t, ht, hrow⟩ := h.exists_task hr
    refine ⟨t, ?_, (hrow.admits_iff u).1 hadmits⟩
    rw [← hid, hrow.id]
    exact hm.find?_of_mem ht
  · rintro ⟨t, ht, hadmits⟩
    rcases h.find? id with ⟨-, hnone⟩ | ⟨r, t', hr, ht', hrow⟩
    · rw [hnone] at ht
      cases ht
    · obtain rfl : t' = t := Option.some.inj (ht'.symm.trans ht)
      refine ⟨r, List.mem_of_find?_eq_some hr, ?_⟩
      have hid : r.id = id := by rw [hrow.id, Memory.id_of_find? ht]
      simp [hid, (hrow.admits_iff u).2 hadmits]

/-- The reason that is found out for an update that changed no row. -/
private theorem reason_of_refusal (id : Int) {u : StatusUpdate} {t : Task} {reason : ConflictReason}
    (h : u.refusal? t = some reason) :
    (match u.expectedVersion with
      | some expected =>
        if expected ≠ t.version then Outcome.error (.conflict id (.version expected t.version))
        else .error (.conflict id (.transition t.status u.status))
      | none => .error (.conflict id (.transition t.status u.status))) =
      (Outcome.error (.conflict id reason) : Outcome Unit) := by
  unfold StatusUpdate.refusal? at h
  cases hv : u.expectedVersion with
  | none =>
    rw [hv] at h
    dsimp only at h ⊢
    split at h <;> cases h
    rfl
  | some v =>
    rw [hv] at h
    dsimp only at h ⊢
    by_cases hne : t.version = v
    · rw [if_neg (by simp [hne])] at h ⊢
      split at h <;> cases h
      rfl
    · have hne' : v ≠ t.version := fun e => hne e.symm
      rw [if_pos hne] at h
      rw [if_pos hne']
      cases h
      rfl

theorem Mirrors.updateStatus_of_admitted (h : tab.Mirrors m) (hm : m.Ordered) {id : Int} {u : StatusUpdate} {t : Task}
    (ht : m.find? id = some t) (hu : u.refusal? t = none) : (tab.updateStatus id u).1 = .ok () := by
  unfold Table.updateStatus
  rw [if_pos ((h.any_hit_iff hm id u).2 ⟨t, ht, hu⟩)]

theorem Mirrors.updateStatus (h : tab.Mirrors m) (hm : m.Ordered) (id : Int) (u : StatusUpdate)
    (room : ∀ t, m.find? id = some t → u.refusal? t = none → t.HasRoom) :
    (tab.updateStatus id u).1 = .answered (m.updateStatus id (u.adjusted Timestamp.asStored)).1 ∧
      (tab.updateStatus id u).2.Mirrors (m.updateStatus id (u.adjusted Timestamp.asStored)).2 := by
  have hrefusal (t : Task) : (u.adjusted Timestamp.asStored).refusal? t = u.refusal? t := rfl
  by_cases hhit : ∃ t, m.find? id = some t ∧ u.refusal? t = none
  · have hany := (h.any_hit_iff hm id u).2 hhit
    obtain ⟨t, ht, hadmits⟩ := hhit
    unfold Table.updateStatus Memory.updateStatus
    rw [if_pos hany, ht]
    dsimp only
    rw [hrefusal, hadmits]
    refine ⟨rfl, h.columns, h.lastId, map_of_shows h.rows fun r s hs hrow => ?_⟩
    -- the table changes every row that its condition hits, the store only the task that it has found
    by_cases hid : s.id = id
    · have hfound := hm.find?_of_mem hs
      rw [hid, ht] at hfound
      obtain rfl := Option.some.inj hfound
      have hadmitted := (hrow.admits_iff u).2 hadmits
      rw [if_pos (by simpa [hrow.id, hadmitted] using hid), if_pos hid]
      exact hrow.updated u (room _ ht hadmits)
    · rw [if_neg (by simp [hrow.id, hid]), if_neg hid]
      exact hrow
  · -- no row is hit, and the table looks the task up again to tell why
    have hany := mt (h.any_hit_iff hm id u).1 hhit
    unfold Table.updateStatus Memory.updateStatus Table.missedUpdate
    rw [if_neg hany]
    dsimp only
    rw [h.get]
    cases ht : m.find? id with
    | none => exact ⟨rfl, h⟩
    | some t =>
      have hid : t.id = id := Memory.id_of_find? ht
      cases hu : u.refusal? t with
      | none => exact absurd ⟨t, ht, hu⟩ hhit
      | some reason =>
        dsimp only [Option.map_some]
        rw [Row.ok_bind, hrefusal, hu]
        refine ⟨?_, h⟩
        rw [hid]
        exact reason_of_refusal id hu

theorem Mirrors.delete (h : tab.Mirrors m) (id : Int) :
    (tab.delete id).1 = (m.delete id).1 ∧ (tab.delete id).2.Mirrors (m.delete id).2 := by
  refine ⟨?_, h.columns, h.lastId, filter_of_shows h.rows fun r t hrow => by rw [hrow.id]⟩
  unfold Table.delete Memory.delete
  rcases h.find? id with ⟨hr, ht⟩ | ⟨r, t, hr, ht, -⟩
  · rw [hr, ht]
    rfl
  · rw [hr, ht]
    rfl

theorem missedUpdate_ne_ok (tab : Table) (id : Int) (u : StatusUpdate) : tab.missedUpdate id u ≠ .ok () := by
  unfold Table.missedUpdate
  cases tab.get id with
  | crashed text => exact fun h => by cases h
  | answered result =>
    cases result with
    | error e => exact fun h => by cases h
    | ok task =>
      rw [show (Outcome.answered (.ok task) : Outcome (Option Task)) = .ok task from rfl, Row.ok_bind]
      cases task with
      | none => exact fun h => by cases h
      | some t =>
        dsimp only
        split
        · split <;> exact fun h => by cases h
        · exact fun h => by cases h

end Table

/-! ### Either kind of store -/

/-- The request with something done to its texts and to its moments. -/
def Request.adjusted (text : String → String) (time : Timestamp → Timestamp) : Request → Request
  | create new => create ⟨text new.text, text new.userId⟩
  | get id => get id
  | getFresh id => getFresh id
  | list => list
  | listByStatus a => listByStatus a
  | updateText id s => updateText id (text s)
  | updateStatus id u => updateStatus id (u.adjusted time)
  | delete id => delete id

/-- The answer to an adjusted request with something done to its tasks. -/
def Request.shown (text : String → String) (time : Timestamp → Timestamp) (task : Task → Task) :
    (r : Request) → (r.adjusted text time).Answer → r.Answer
  | create _, t => task t
  | get _, t => t.map task
  | getFresh _, t => t.map task
  | list, ts => ts.map task
  | listByStatus _, ts => ts.map task
  | updateText _ _, a => a
  | updateStatus _ _, a => a
  | delete _, a => a

namespace Backend

/-- What a store makes of a text. -/
def textOf : Backend → String → String
  | memory _ => id
  | table _ => Row.readable

/-- What a store makes of a moment. -/
def timeOf : Backend → Timestamp → Timestamp
  | memory _ => id
  | table _ => Timestamp.asStored

/-- What a store makes of a request. -/
def hears (b : Backend) : Request → Request := Request.adjusted b.textOf b.timeOf

/-- What a store shows of a task. -/
def shows : Backend → Task → Task
  | memory _ => id
  | table _ => Task.capped

@[simp] theorem shows_id (b : Backend) (t : Task) : (b.shows t).id = t.id := by cases b <;> rfl

@[simp] theorem shows_version (b : Backend) (t : Task) : (b.shows t).version = t.version := by cases b <;> rfl

@[simp] theorem shows_status (b : Backend) (t : Task) : (b.shows t).status = t.status := by cases b <;> rfl

@[simp] theorem shows_startedAt (b : Backend) (t : Task) : (b.shows t).startedAt = t.startedAt := by cases b <;> rfl

@[simp] theorem shows_endedAt (b : Backend) (t : Task) : (b.shows t).endedAt = t.endedAt := by cases b <;> rfl

theorem shows_attempts (b : Backend) {t : Task} (h : t.attempts ≤ Row.mostAttempts) :
    (b.shows t).attempts = t.attempts := by
  cases b with
  | memory m => rfl
  | table tab =>
    show Row.attemptsOf t.attempts = t.attempts
    unfold Row.attemptsOf
    split <;> omega

theorem shows_text (b : Backend) (t : Task) (text : String) :
    b.shows { t with text } = { b.shows t with text } := by cases b <;> rfl

/-- The store stands for a store in memory. -/
def Represents : Backend → Memory → Prop
  | memory m', m => m' = m
  | table tab, m => tab.Mirrors m

end Backend

/-- Whether the numbers that come of a request fit into 64 bits. -/
def Memory.HasRoom (m : Memory) : Request → Prop
  | .create _ => m.lastId < mostInteger
  | .updateStatus id u =>
    ∀ t, m.find? id = some t → u.refusal? t = none → (t.attempts : Int) ≤ t.version ∧ t.version < mostInteger
  | _ => True

private theorem mapOk_id {α : Type} (o : Outcome α) : o.mapOk (fun a => a) = o := by
  rcases o with (_ | _) | _ <;> rfl

private theorem perform_memory (m : Memory) (now : Timestamp) (r : Request) :
    (m.perform now r).1 = (m.perform now (r.adjusted id id)).1.mapOk (r.shown id id id) ∧
      (m.perform now r).2 = (m.perform now (r.adjusted id id)).2 := by
  cases r with
  | create new => exact ⟨rfl, rfl⟩
  | get k => exact ⟨congrArg Outcome.ok (by simp [Request.shown]), rfl⟩
  | getFresh k => exact ⟨congrArg Outcome.ok (by simp [Request.shown]), rfl⟩
  | list => exact ⟨congrArg Outcome.ok (by simp [Request.shown]), rfl⟩
  | listByStatus a => exact ⟨congrArg Outcome.ok (by simp [Request.shown]), rfl⟩
  | updateText k s => exact ⟨(mapOk_id _).symm, rfl⟩
  | updateStatus k u =>
    have hsame : u.adjusted id = u := by simp [StatusUpdate.adjusted]
    constructor
    · show Outcome.answered (m.updateStatus k u).1 =
        (Outcome.answered (m.updateStatus k (u.adjusted id)).1).mapOk fun a => a
      rw [hsame, mapOk_id]
    · show (m.updateStatus k u).2 = (m.updateStatus k (u.adjusted id)).2
      rw [hsame]
  | delete k => exact ⟨rfl, rfl⟩

private theorem Table.Mirrors.perform {tab : Table} {m : Memory} (h : tab.Mirrors m) (hm : m.Ordered)
    (now : Timestamp) {r : Request} (room : m.HasRoom r) :
    (tab.perform now r).1 =
        (m.perform now.asStored (r.adjusted Row.readable Timestamp.asStored)).1.mapOk
          (r.shown Row.readable Timestamp.asStored Task.capped) ∧
      (tab.perform now r).2.Mirrors (m.perform now.asStored (r.adjusted Row.readable Timestamp.asStored)).2 := by
  cases r with
  | create new => exact h.create hm now new room
  | get k => exact ⟨h.get k, h⟩
  | getFresh k => exact ⟨h.get k, h⟩
  | list => exact ⟨h.list, h⟩
  | listByStatus a => exact ⟨h.withStatus a, h⟩
  | updateText k s =>
    obtain ⟨ho, hs⟩ := h.updateText k s
    exact ⟨ho.trans (mapOk_id _).symm, hs⟩
  | updateStatus k u =>
    obtain ⟨ho, hs⟩ := h.updateStatus hm k u fun t ht hu =>
      Task.hasRoom_of_attempts_le (room t ht hu).1 (room t ht hu).2
    exact ⟨ho.trans (mapOk_id _).symm, hs⟩
  | delete k =>
    obtain ⟨ho, hs⟩ := h.delete k
    exact ⟨congrArg Outcome.ok ho, hs⟩

/-- Every store answers as the store in memory does for which it stands; a table does so while its numbers fit. -/
theorem Backend.Represents.perform {b : Backend} {m : Memory} (h : b.Represents m) (hm : m.Ordered) (now : Timestamp)
    {r : Request} (room : ∀ tab, b = table tab → m.HasRoom r) :
    (b.perform now r).1 = (m.perform (b.timeOf now) (b.hears r)).1.mapOk (r.shown b.textOf b.timeOf b.shows) ∧
      (b.perform now r).2.Represents (m.perform (b.timeOf now) (b.hears r)).2 := by
  cases b with
  | memory m' =>
    obtain rfl : m' = m := h
    exact perform_memory m' now r
  | table tab => exact Table.Mirrors.perform h hm now (room tab rfl)

theorem Backend.Represents.get {b : Backend} {m : Memory} (h : b.Represents m) (wall : Timestamp) (id : Int) :
    b.perform wall (.get id) = (.ok ((m.find? id).map b.shows), b) := by
  cases b with
  | memory m' =>
    obtain rfl : m' = m := h
    rw [show (memory m').shows = fun t => t from rfl, Option.map_id']
    rfl
  | table tab => exact congrArg (fun o => (o, table tab)) (Table.Mirrors.get h id)

theorem Backend.Represents.getFresh {b : Backend} {m : Memory} (h : b.Represents m) (wall : Timestamp) (id : Int) :
    b.perform wall (.getFresh id) = (.ok ((m.find? id).map b.shows), b) := by
  have hsame : b.perform wall (.getFresh id) = b.perform wall (.get id) := by cases b <;> rfl
  rw [hsame]
  exact h.get wall id

theorem Backend.Represents.list {b : Backend} {m : Memory} (h : b.Represents m) (wall : Timestamp) :
    b.perform wall .list = (.ok (m.tasks.map b.shows), b) := by
  cases b with
  | memory m' =>
    obtain rfl : m' = m := h
    rw [show (memory m').shows = id from rfl, List.map_id]
    rfl
  | table tab => exact congrArg (fun o => (o, table tab)) (Table.Mirrors.list h)

theorem Backend.Represents.listByStatus {b : Backend} {m : Memory} (h : b.Represents m) (wall : Timestamp)
    (a : Status) : b.perform wall (.listByStatus a) = (.ok ((m.withStatus a).map b.shows), b) := by
  cases b with
  | memory m' =>
    obtain rfl : m' = m := h
    rw [show (memory m').shows = id from rfl, List.map_id]
    rfl
  | table tab => exact congrArg (fun o => (o, table tab)) (Table.Mirrors.withStatus h a)

/-- An update of the status succeeds if and only if the task is there and does not refuse it. -/
theorem Backend.Represents.updateStatus_ok_iff {b : Backend} {m : Memory} (h : b.Represents m) (hm : m.Ordered)
    (now : Timestamp) (id : Int) (u : StatusUpdate) :
    (b.perform now (.updateStatus id u)).1 = .ok () ↔ ∃ t, m.find? id = some t ∧ u.refusal? t = none := by
  cases b with
  | memory m' =>
    obtain rfl : m' = m := h
    simp only [Backend.perform, Memory.perform, Memory.updateStatus]
    cases ht : m'.find? id with
    | none => simp [Outcome.ok]
    | some t =>
      dsimp only
      cases hu : u.refusal? t <;> simp [Outcome.ok, hu]
  | table tab =>
    constructor
    · intro hok
      by_contra hnone
      have hmiss := mt (Table.Mirrors.any_hit_iff h hm id u).1 hnone
      rw [Backend.perform, Table.perform, Table.updateStatus, if_neg hmiss] at hok
      exact tab.missedUpdate_ne_ok id u hok
    · rintro ⟨t, ht, hu⟩
      exact Table.Mirrors.updateStatus_of_admitted h hm ht hu

end Store

end Backlog
