import Backlog.Proofs.Store.Recall
import Backlog.Proofs.Store.Rowwise

/-!
# Listed tasks and failed ones

A listing by status shows the rows that have the status and can be read, whatever else the store holds.  A listed
task is moved back to waiting or to failure by an update that expects its version and gives no times.

Key facts: what is listed can be told row by row (`Backend.Ordered.mem_listed_iff`).  A listed task may be moved as its
status allows (`Backend.Offers.admits`) and is read with the new status then (`Backend.Offers.moved`), while one whose
version is another one by now is not moved (`Backend.LacksVersion.not_admits`).  After several updates by which tasks
fail each of them has been updated once (`Backend.Fails.updatedAt`) and has failed (`Backend.Fails.offers`), everything
else is as it was (`Backend.Fails.agreesAt`), and the store offers what it offered, but for them
(`Backend.Fails.offers_iff`).
-/

namespace Backlog

/-- The task after it has failed. -/
def Task.asFailed (c : Task) : Task := { c with status := .failed, version := c.version + 1 }

/-- The update by which a task fails. -/
def Task.failure (c : Task) : StatusUpdate := (StatusUpdate.ofStatus .failed).expecting c.version

/-- The task after it was moved to a status other than processing. -/
def Task.moved (c : Task) (a : Status) : Task := { c with status := a, version := c.version + 1 }

/-- The update by which a task is moved to a status. -/
def Task.moving (c : Task) (a : Status) : StatusUpdate := (StatusUpdate.ofStatus a).expecting c.version

theorem Task.applyTo_moving (c : Task) {a : Status} (idle : a ≠ .processing) : (c.moving a).applyTo c = c.moved a := by
  have hstatus : (c.moving a).status ≠ .processing := idle
  unfold StatusUpdate.applyTo
  rw [if_neg hstatus]
  rfl

namespace Store

open Sql

/-! ### What a row is read as -/

/-- A row is read as a task, cell by cell. -/
structure Row.Reads (r : Row) (t : Task) : Prop where
  id : t.id = r.id
  text : requiredText "text" r.text = .ok t.text
  status : ∃ name, requiredText "status" r.status = .ok name ∧ readStatus r.id name = .ok t.status
  userId : ∃ name, optionalText r.userId = .ok name ∧ t.userId = name.getD ""
  createdAt : ∃ text, requiredText "created_at" r.createdAt = .ok text ∧ t.createdAt = .ofStored text
  startedAt : ∃ text, optionalText r.startedAt = .ok text ∧ t.startedAt = timeOfText? text
  endedAt : ∃ text, optionalText r.endedAt = .ok text ∧ t.endedAt = timeOfText? text
  version : counter r.version = .ok t.version
  attempts : ∃ n, counter r.attempts = .ok n ∧ t.attempts = attemptsOf n

theorem Row.Reads.of_toTask {r : Row} {t : Task} (h : r.toTask = .ok t) : r.Reads t := by
  unfold Row.toTask at h
  obtain ⟨text, htext, h⟩ := bind_eq_ok h
  obtain ⟨name, hname, h⟩ := bind_eq_ok h
  obtain ⟨status, hstatus, h⟩ := bind_eq_ok h
  obtain ⟨user, huser, h⟩ := bind_eq_ok h
  obtain ⟨created, hcreated, h⟩ := bind_eq_ok h
  obtain ⟨started, hstarted, h⟩ := bind_eq_ok h
  obtain ⟨ended, hended, h⟩ := bind_eq_ok h
  obtain ⟨version, hversion, h⟩ := bind_eq_ok h
  obtain ⟨attempts, hattempts, h⟩ := bind_eq_ok h
  cases h
  exact ⟨rfl, htext, ⟨name, hname, hstatus⟩, ⟨user, huser, rfl⟩, ⟨created, hcreated, rfl⟩, ⟨started, hstarted, rfl⟩,
    ⟨ended, hended, rfl⟩, hversion, ⟨attempts, hattempts, rfl⟩⟩

theorem Row.Reads.toTask {r : Row} {t : Task} (h : r.Reads t) : r.toTask = .ok t := by
  obtain ⟨name, hname, hstatus⟩ := h.status
  obtain ⟨user, huser, ruser⟩ := h.userId
  obtain ⟨created, hcreated, rcreated⟩ := h.createdAt
  obtain ⟨started, hstarted, rstarted⟩ := h.startedAt
  obtain ⟨ended, hended, rended⟩ := h.endedAt
  obtain ⟨attempts, hattempts, rattempts⟩ := h.attempts
  unfold Row.toTask
  simp only [h.text, hname, hstatus, huser, hcreated, hstarted, hended, h.version, hattempts, Row.ok_bind]
  rw [← h.id, ← ruser, ← rcreated, ← rstarted, ← rended, ← rattempts]
  rfl

theorem exists_toTasks_iff {rows : List Row} :
    (∃ ts, Row.toTasks rows = .ok ts) ↔ ∀ r ∈ rows, ∃ t, r.toTask = .ok t := by
  constructor
  · rintro ⟨ts, hts⟩ r hr
    obtain ⟨t, -, ht⟩ := exists_task_of_toTasks hts hr
    exact ⟨t, ht⟩
  · intro h
    induction rows with
    | nil => exact ⟨[], rfl⟩
    | cons r rows ih =>
      obtain ⟨t, ht⟩ := h r List.mem_cons_self
      obtain ⟨ts, hts⟩ := ih fun r hr => h r (List.mem_cons_of_mem _ hr)
      refine ⟨t :: ts, ?_⟩
      rw [Row.toTasks, ht, hts]
      rfl

/-- A number is read from a cell that holds it, and zero also from an empty one. -/
theorem counter_cases {c : Cell} {n : Int} (h : Row.counter c = .ok n) : c = .integer n ∨ c = .null ∧ n = 0 := by
  cases c with
  | integer m =>
    cases h
    exact .inl rfl
  | null =>
    cases h
    exact .inr ⟨rfl, rfl⟩
  | real bits => cases h
  | text s => cases h

/-! ### The row after an update -/

/-- The numbers of a row are such as a cell holds, and its version can be raised. -/
structure Row.HasRoom (r : Row) : Prop where
  version : ∀ n, r.version = .integer n → leastInteger ≤ n ∧ n < mostInteger
  attempts : ∀ n, r.attempts = .integer n → leastInteger ≤ n ∧ n ≤ mostInteger

theorem timeOfText?_storedText (t : Timestamp) : Row.timeOfText? (some (Row.readable t.storedText)) = some t.asStored := by
  show (if (Row.readable t.storedText).isEmpty then none else some t.asStored) = _
  rw [Row.isEmpty_storedText]
  rfl

/-- The time that is read from a cell after an update is the one that the update gives, or else the one from before. -/
theorem exists_time_orElse {c : Cell} {o : Option Timestamp}
    (h : ∃ text, Row.optionalText c = .ok text ∧ o = Row.timeOfText? text) (new : Option Timestamp) :
    ∃ text, Row.optionalText (((new.map fun t => Cell.text t.storedText).getD .null).orElse c) = .ok text ∧
      (new.map Timestamp.asStored).or o = Row.timeOfText? text := by
  cases new with
  | none => exact h
  | some t => exact ⟨_, rfl, (timeOfText?_storedText t).symm⟩

/-- The row after an update is read as before, but for the status, the times that the update gives, and the numbers. -/
theorem Row.Reads.updated {r : Row} {t : Task} (h : r.Reads t) (u : StatusUpdate) {version : Int} {attempts : Nat}
    (hversion : counter ((r.version.plus 1).keptAs .integer) = .ok version)
    (hattempts : ∃ n, counter ((r.attempts.plus (if u.status = .processing then 1 else 0)).keptAs .integer) = .ok n ∧
      attempts = attemptsOf n) :
    (r.updated u).Reads
      { t with
        status := u.status
        startedAt := (u.startedAt.map Timestamp.asStored).or t.startedAt
        endedAt := (u.endedAt.map Timestamp.asStored).or t.endedAt
        version
        attempts } := by
  have hstatus : requiredText "status" (.text u.status.name) = .ok u.status.name := by
    rw [requiredText, readable_name]
  exact { h with
    status := ⟨_, hstatus, readStatus_name r.id u.status⟩
    startedAt := exists_time_orElse h.startedAt u.startedAt
    endedAt := exists_time_orElse h.endedAt u.endedAt
    version := hversion
    attempts := hattempts }

theorem counter_plus_integer {m n : Int} (h : leastInteger ≤ m + n ∧ m + n ≤ mostInteger) :
    Row.counter (((Cell.integer m).plus n).keptAs .integer) = .ok (m + n) := by
  rw [Cell.plus_integer h]
  rfl

private theorem counter_plus_zero {c : Cell} {n : Int} (h : Row.counter c = .ok n)
    (room : ∀ n, c = .integer n → leastInteger ≤ n ∧ n ≤ mostInteger) :
    Row.counter ((c.plus 0).keptAs .integer) = .ok n := by
  rcases counter_cases h with rfl | ⟨rfl, -⟩
  · have hplus := counter_plus_integer (m := n) (n := 0) (by simpa using room n rfl)
    rwa [Int.add_zero] at hplus
  · exact h

/-- The row of a task that is moved is read as before, but for the status and the version. -/
theorem Row.Reads.moved {r : Row} {c : Task} {a : Status} (h : r.Reads c) (idle : a ≠ .processing)
    (version : r.version = .integer c.version) (room : r.HasRoom) : (r.updated (c.moving a)).Reads (c.moved a) := by
  obtain ⟨attempts, hattempts, rattempts⟩ := h.attempts
  have hroom := room.version c.version version
  have hversion : counter ((r.version.plus 1).keptAs .integer) = .ok (c.version + 1) := by
    rw [version]
    exact counter_plus_integer ⟨by omega, by omega⟩
  have hcounter : counter ((r.attempts.plus (if (c.moving a).status = .processing then 1 else 0)).keptAs .integer) =
      .ok attempts := by
    rw [if_neg (show (c.moving a).status ≠ .processing from idle)]
    exact counter_plus_zero hattempts room.attempts
  exact h.updated (c.moving a) hversion ⟨attempts, hcounter, rattempts⟩

/-! ### What a store offers -/

/-- An update that the row of a task admits is made. -/
theorem Table.updateStatus_of_admitted {tab : Table} {id : Int} {u : StatusUpdate} {r : Row}
    (hr : tab.find? id = some r) (hadmits : r.admits u = true) : (tab.updateStatus id u).1 = .ok () := by
  have hid : r.id = id := by simpa using List.find?_some hr
  unfold Table.updateStatus
  dsimp only
  rw [if_pos (List.any_eq_true.2 ⟨r, List.mem_of_find?_eq_some hr, by simp [hid, hadmits]⟩)]

theorem Table.find?_updateStatus {tab : Table} {id : Int} {u : StatusUpdate} {r : Row} (hr : tab.find? id = some r)
    (hadmits : r.admits u = true) : (tab.updateStatus id u).2.find? id = some (r.updated u) := by
  have hid : r.id = id := by simpa using List.find?_some hr
  have hhit : (decide (r.id = id) && r.admits u) = true := by simp [hid, hadmits]
  unfold Table.updateStatus
  dsimp only
  rw [if_pos (List.any_eq_true.2 ⟨r, List.mem_of_find?_eq_some hr, hhit⟩)]
  exact Table.find?_modifyWhere hr hhit (fun r hr => by simp at hr; exact hr.1) fun _ => rfl

namespace Backend

variable {b b' b'' : Backend} {a a' : Status} {c d : Task} {cs : List Task} {u : StatusUpdate} {id : Int}

/-- Under the identifier of a task the store shows that task, and it has the status. -/
def Offers (a : Status) (c : Task) : Backend → Prop
  | memory m => m.find? c.id = some c ∧ c.status = a
  | table tab => ∃ r, tab.find? c.id = some r ∧ r.status = .text a.name ∧ r.toTask = .ok c

/-- What the store holds under an identifier has the status, whether or not it can be read. -/
def HasStatus (id : Int) (a : Status) : Backend → Prop
  | memory m => ∃ t, m.find? id = some t ∧ t.status = a
  | table tab => ∃ r, tab.find? id = some r ∧ r.status = .text a.name

/-- Two stores are of the same kind, and under an identifier the second holds what an update makes of what the first
holds. -/
def UpdatedAt (id : Int) (u : StatusUpdate) : Backend → Backend → Prop
  | memory m, memory m' => ∃ t, m.find? id = some t ∧ m'.find? id = some (u.applyTo t)
  | table tab, table tab' => ∃ r, tab.find? id = some r ∧ tab'.find? id = some (r.updated u)
  | _, _ => False

/-- What the store holds under an identifier admits an update. -/
def Admits (id : Int) (u : StatusUpdate) : Backend → Prop
  | memory m => ∃ t, m.find? id = some t ∧ u.refusal? t = none
  | table tab => ∃ r, tab.find? id = some r ∧ r.admits u = true

/-- If the store is a table, the version under an identifier can be raised. -/
def HasRoomAt (id : Int) : Backend → Prop
  | memory _ => True
  | table tab => ∀ r, tab.find? id = some r → r.HasRoom

/-- What the store holds under an identifier, if it holds anything, has another version. -/
def LacksVersion (id version : Int) : Backend → Prop
  | memory m => ∀ t, m.find? id = some t → t.version ≠ version
  | table tab => ∀ r, tab.find? id = some r → r.version ≠ .integer version

/-- If the store is a table, a version is stored under an identifier. -/
def HasVersionAt (id : Int) : Backend → Prop
  | memory _ => True
  | table tab => ∀ r, tab.find? id = some r → r.version ≠ .null

theorem Offers.holds (h : b.Offers a c) : b.Holds c.id := by
  cases b with
  | memory m => exact ⟨c, h.1⟩
  | table tab =>
    obtain ⟨r, hr, -⟩ := h
    exact ⟨r, hr⟩

theorem Offers.hasStatus (h : b.Offers a c) : b.HasStatus c.id a := by
  cases b with
  | memory m => exact ⟨c, h⟩
  | table tab =>
    obtain ⟨r, hr, hstatus, -⟩ := h
    exact ⟨r, hr, hstatus⟩

theorem HasStatus.eq (h : b.HasStatus id a) (h' : b.HasStatus id a') : a = a' := by
  cases b with
  | memory m =>
    obtain ⟨t, ht, rfl⟩ := h
    obtain ⟨t', ht', rfl⟩ := h'
    rw [ht] at ht'
    cases ht'
    rfl
  | table tab =>
    obtain ⟨r, hr, hstatus⟩ := h
    obtain ⟨r', hr', hstatus'⟩ := h'
    rw [hr] at hr'
    cases hr'
    rw [hstatus] at hstatus'
    exact Status.name_injective (by simpa using hstatus')

theorem Offers.of_agreesAt (h : b.Offers a c) (agrees : AgreesAt c.id b b') : b'.Offers a c := by
  rcases agrees.cases with ⟨m, m', rfl, rfl, hsame⟩ | ⟨tab, tab', rfl, rfl, hsame⟩
  · exact ⟨Eq.trans hsame h.1, h.2⟩
  · obtain ⟨r, hr, hrest⟩ := h
    exact ⟨r, Eq.trans hsame hr, hrest⟩

theorem HasStatus.of_agreesAt (h : b.HasStatus id a) (agrees : AgreesAt id b b') : b'.HasStatus id a := by
  rcases agrees.cases with ⟨m, m', rfl, rfl, hsame⟩ | ⟨tab, tab', rfl, rfl, hsame⟩
  all_goals
    obtain ⟨held, hheld, hstatus⟩ := h
    exact ⟨held, Eq.trans hsame hheld, hstatus⟩

theorem Admits.of_agreesAt (h : b.Admits id u) (agrees : AgreesAt id b b') : b'.Admits id u := by
  rcases agrees.cases with ⟨m, m', rfl, rfl, hsame⟩ | ⟨tab, tab', rfl, rfl, hsame⟩
  all_goals
    obtain ⟨held, hheld, hadmits⟩ := h
    exact ⟨held, Eq.trans hsame hheld, hadmits⟩

/-- A task that was offered may be moved to a status if it may have that one next. -/
theorem Offers.admits (h : b.Offers a c) (movable : a.canMoveTo a' = true) (versioned : b.HasVersionAt c.id) :
    b.Admits c.id (c.moving a') := by
  cases b with
  | memory m =>
    obtain ⟨hfind, rfl⟩ := h
    refine ⟨c, hfind, StatusUpdate.refusal?_eq_none_iff.2 ⟨fun v hv => ?_, movable⟩⟩
    exact Option.some.inj hv
  | table tab =>
    obtain ⟨r, hr, hstatus, hread⟩ := h
    have hversion : r.version = .integer c.version :=
      (counter_cases (Row.Reads.of_toTask hread).version).resolve_right fun hnull => versioned r hr hnull.1
    refine ⟨r, hr, ?_⟩
    unfold Row.admits
    rw [Bool.and_eq_true, List.any_eq_true]
    exact ⟨⟨a, Status.mem_predecessors_iff.2 movable, decide_eq_true hstatus⟩, decide_eq_true hversion⟩

/-- An update that expects a version is not admitted where that is not the version. -/
theorem LacksVersion.not_admits {version : Int} (h : b.LacksVersion id version)
    (expects : u.expectedVersion = some version) : ¬ b.Admits id u := by
  intro admits
  cases b with
  | memory m =>
    obtain ⟨t, ht, hu⟩ := admits
    exact h t ht ((StatusUpdate.refusal?_eq_none_iff.1 hu).1 version expects)
  | table tab =>
    obtain ⟨r, hr, hadmits⟩ := admits
    unfold Row.admits at hadmits
    rw [expects, Bool.and_eq_true] at hadmits
    exact h r hr (of_decide_eq_true hadmits.2)

/-- A listing by status shows exactly the tasks that the store offers with that status. -/
theorem Ordered.mem_listed_iff (hb : b.Ordered) {wall : Timestamp} {ts : List Task}
    (h : (b.perform wall (.listByStatus a)).1 = .ok ts) : c ∈ ts ↔ b.Offers a c := by
  cases b with
  | memory m =>
    cases h
    show c ∈ m.tasks.filter _ ↔ _
    rw [List.mem_filter, decide_eq_true_eq]
    exact and_congr_left fun _ => ⟨Memory.Ordered.find?_of_mem hb, Memory.mem_of_find?⟩
  | table tab =>
    have hread : Row.toTasks (tab.rows.filter fun r => r.status = .text a.name) = .ok ts := h
    constructor
    · intro hc
      obtain ⟨r, hr, hrc⟩ := exists_row_of_toTasks hread hc
      obtain ⟨hr, hstatus⟩ := List.mem_filter.1 hr
      refine ⟨r, ?_, by simpa using hstatus, hrc⟩
      rw [Row.id_of_toTask hrc]
      exact Table.Ordered.find?_of_mem hb hr
    · rintro ⟨r, hr, hstatus, hrc⟩
      have hmem : r ∈ tab.rows.filter fun r => r.status = .text a.name :=
        List.mem_filter.2 ⟨List.mem_of_find?_eq_some hr, by simpa using hstatus⟩
      obtain ⟨c', hc', hrc'⟩ := exists_task_of_toTasks hread hmem
      rw [hrc] at hrc'
      cases hrc'
      exact hc'

/-! ### Updates of what is offered -/

theorem Ordered.updateStatus_ok_iff (hb : b.Ordered) (wall : Timestamp) :
    (b.perform wall (.updateStatus id u)).1 = .ok () ↔ b.Admits id u := by
  cases b with
  | memory m =>
    show Outcome.answered (m.updateStatus id u).1 = _ ↔ ∃ t, _
    unfold Memory.updateStatus
    cases m.find? id with
    | none => simp [Outcome.ok]
    | some t =>
      dsimp only
      cases hu : u.refusal? t <;> simp [Outcome.ok, hu]
  | table tab =>
    show (tab.updateStatus id u).1 = _ ↔ ∃ r, _
    constructor
    · intro hok
      unfold Table.updateStatus at hok
      dsimp only at hok
      split at hok
      · rename_i hany
        obtain ⟨r, hr, hhit⟩ := List.any_eq_true.1 hany
        simp only [Bool.and_eq_true, decide_eq_true_eq] at hhit
        obtain ⟨rfl, hadmits⟩ := hhit
        exact ⟨r, Table.Ordered.find?_of_mem hb hr, hadmits⟩
      · exact absurd hok (tab.missedUpdate_ne_ok id u)
    · rintro ⟨r, hr, hadmits⟩
      exact Table.updateStatus_of_admitted hr hadmits

/-- An update that is answered with an error leaves the store as it is. -/
theorem eq_of_refused {wall : Timestamp} {e : StoreError}
    (h : (b.perform wall (.updateStatus id u)).1 = .answered (.error e)) :
    (b.perform wall (.updateStatus id u)).2 = b := by
  cases b with
  | memory m =>
    show memory (m.updateStatus id u).2 = memory m
    have hrefused : (m.updateStatus id u).1 = .error e := Outcome.answered.inj h
    unfold Memory.updateStatus at hrefused ⊢
    split at hrefused
    · rfl
    · split at hrefused
      · rfl
      · cases hrefused
  | table tab =>
    show table (tab.updateStatus id u).2 = table tab
    have hrefused : (tab.updateStatus id u).1 = .answered (.error e) := h
    unfold Table.updateStatus at hrefused ⊢
    dsimp only at hrefused ⊢
    split at hrefused
    · cases hrefused
    · rename_i hmissed
      rw [if_neg hmissed]

theorem Admits.updatedAt (h : b.Admits id u) (wall : Timestamp) :
    UpdatedAt id u b (b.perform wall (.updateStatus id u)).2 := by
  cases b with
  | memory m =>
    obtain ⟨t, ht, hu⟩ := h
    have hfind : (m.perform wall (.updateStatus id u)).2.find? id = some (u.applyTo t) :=
      Memory.find?_updateStatus ht hu
    exact ⟨t, ht, hfind⟩
  | table tab =>
    obtain ⟨r, hr, hadmits⟩ := h
    exact ⟨r, hr, Table.find?_updateStatus hr hadmits⟩

theorem UpdatedAt.hasStatus (h : UpdatedAt id u b b') : b'.HasStatus id u.status := by
  cases b with
  | memory m =>
    cases b' with
    | memory m' =>
      obtain ⟨t, -, ht'⟩ := h
      exact ⟨_, ht', u.applyTo_status t⟩
    | table tab' => exact False.elim h
  | table tab =>
    cases b' with
    | memory m' => exact False.elim h
    | table tab' =>
      obtain ⟨r, -, hr'⟩ := h
      exact ⟨_, hr', rfl⟩

theorem UpdatedAt.holds (h : UpdatedAt id u b b') : b'.Holds id := by
  cases b with
  | memory m =>
    cases b' with
    | memory m' =>
      obtain ⟨t, -, ht'⟩ := h
      exact ⟨_, ht'⟩
    | table tab' => exact False.elim h
  | table tab =>
    cases b' with
    | memory m' => exact False.elim h
    | table tab' =>
      obtain ⟨r, -, hr'⟩ := h
      exact ⟨_, hr'⟩

theorem UpdatedAt.of_agreesAt (h : UpdatedAt id u b b') (agrees : AgreesAt id b' b'') : UpdatedAt id u b b'' := by
  rcases agrees.cases with ⟨m', m'', rfl, rfl, hsame⟩ | ⟨tab', tab'', rfl, rfl, hsame⟩
  · cases b with
    | memory m =>
      obtain ⟨t, ht, ht'⟩ := h
      exact ⟨t, ht, hsame.trans ht'⟩
    | table tab => exact False.elim h
  · cases b with
    | memory m => exact False.elim h
    | table tab =>
      obtain ⟨r, hr, hr'⟩ := h
      exact ⟨r, hr, hsame.trans hr'⟩

theorem AgreesAt.updatedAt (agrees : AgreesAt id b b') (h : UpdatedAt id u b' b'') : UpdatedAt id u b b'' := by
  rcases agrees.cases with ⟨m, m', rfl, rfl, hsame⟩ | ⟨tab, tab', rfl, rfl, hsame⟩
  · cases b'' with
    | memory m'' =>
      obtain ⟨t, ht', ht''⟩ := h
      exact ⟨t, hsame.symm.trans ht', ht''⟩
    | table tab'' => exact False.elim h
  · cases b'' with
    | memory m'' => exact False.elim h
    | table tab'' =>
      obtain ⟨r, hr', hr''⟩ := h
      exact ⟨r, hsame.symm.trans hr', hr''⟩

/-- A task that is offered and may be moved to a status is offered with that status after the update. -/
theorem Offers.moved (h : b.Offers a c) (idle : a' ≠ .processing) (admits : b.Admits c.id (c.moving a'))
    (room : b.HasRoomAt c.id) (updated : UpdatedAt c.id (c.moving a') b b') : b'.Offers a' (c.moved a') := by
  cases b with
  | memory m =>
    cases b' with
    | memory m' =>
      obtain ⟨t, ht, ht'⟩ := updated
      have hsame := h.1
      rw [ht] at hsame
      cases hsame
      rw [c.applyTo_moving idle] at ht'
      exact ⟨ht', rfl⟩
    | table tab' => exact False.elim updated
  | table tab =>
    cases b' with
    | memory m' => exact False.elim updated
    | table tab' =>
      obtain ⟨r, hr, -, hread⟩ := h
      obtain ⟨r₁, hr₁, hadmits⟩ := admits
      rw [hr] at hr₁
      cases hr₁
      obtain ⟨r₂, hr₂, hr'⟩ := updated
      rw [hr] at hr₂
      cases hr₂
      have hversion : r.version = .integer c.version := by
        unfold Row.admits at hadmits
        rw [Bool.and_eq_true] at hadmits
        exact of_decide_eq_true hadmits.2
      exact ⟨_, hr', rfl, ((Row.Reads.of_toTask hread).moved idle hversion (room r hr)).toTask⟩

/-- A listing by another status than that of an update is answered after the update if it was answered before. -/
theorem lists_updateStatus (h : ∃ wall ts, (b.perform wall (.listByStatus a)).1 = .ok ts) (other : u.status ≠ a)
    (wall : Timestamp) :
    ∃ wall' ts, ((b.perform wall (.updateStatus id u)).2.perform wall' (.listByStatus a)).1 = .ok ts := by
  cases b with
  | memory m => exact ⟨wall, _, rfl⟩
  | table tab =>
    obtain ⟨wall₀, ts, hts⟩ := h
    have hread := exists_toTasks_iff.1 ⟨ts, hts⟩
    refine ⟨wall, exists_toTasks_iff.2 fun r hr => ?_⟩
    obtain ⟨hmem, hstatus⟩ := List.mem_filter.1 hr
    have hrow : r ∈ tab.rows := by
      have hrows : r ∈ (tab.updateStatus id u).2.rows := hmem
      unfold Table.updateStatus at hrows
      dsimp only at hrows
      split at hrows
      · obtain ⟨r₀, hr₀, hsame⟩ := List.mem_map.1 hrows
        split at hsame
        · -- the row that is changed has the new status
          subst hsame
          have hname : u.status.name = a.name := by simpa [Row.updated] using hstatus
          exact absurd (Status.name_injective hname) other
        · exact hsame ▸ hr₀
      · exact hrows
    exact hread r (List.mem_filter.2 ⟨hrow, hstatus⟩)

/-- A store after updates, all of them made, by which some tasks have failed one after another. -/
inductive Fails (b : Backend) : List Task → Backend → Prop
  | none : Fails b [] b
  | next {cs : List Task} {b' : Backend} {c : Task} (wall : Timestamp) (h : Fails b cs b')
      (admits : b'.Admits c.id c.failure) : Fails b (cs ++ [c]) (b'.perform wall (.updateStatus c.id c.failure)).2

namespace Fails

theorem eq_of_nil (h : b.Fails [] b') : b' = b := by
  generalize hnil : [] = cs at h
  cases h with
  | none => rfl
  | next => simp at hnil

theorem ordered (h : b.Fails cs b') (hb : b.Ordered) : b'.Ordered := by
  induction h with
  | none => exact hb
  | next wall _ _ ih => exact ih.perform wall _

/-- What the store holds under other identifiers stays as it was. -/
theorem agreesAt (h : b.Fails cs b') (other : ∀ c ∈ cs, c.id ≠ id) : AgreesAt id b b' := by
  induction h with
  | none => exact .refl id b
  | @next cs b' c wall _ _ ih =>
    have hbefore := ih fun d hd => other d (List.mem_append_left _ hd)
    have hne : c.id ≠ id := other c (List.mem_append_right _ List.mem_cons_self)
    exact hbefore.trans (b'.agreesAt_updateStatus wall c.failure hne.symm)

theorem hasStatus (h : b.Fails cs b') (hc : c ∈ cs) : b'.HasStatus c.id .failed := by
  induction h with
  | none => cases hc
  | @next cs b' d wall _ admits ih =>
    by_cases hid : c.id = d.id
    · rw [hid]
      exact (admits.updatedAt wall).hasStatus
    · rcases List.mem_append.1 hc with hc | hc
      · exact (ih hc).of_agreesAt (b'.agreesAt_updateStatus wall d.failure hid)
      · exact absurd (congrArg Task.id (List.mem_singleton.1 hc)) hid

section

variable (h : b.Fails cs b') (order : cs.Pairwise fun c d => c.id < d.id) (hc : c ∈ cs)

include h order hc

/-- One update among the others is about the task. -/
private theorem exists_update : ∃ b₁ wall, AgreesAt c.id b b₁ ∧ b₁.Admits c.id c.failure ∧
    AgreesAt c.id (b₁.perform wall (.updateStatus c.id c.failure)).2 b' := by
  induction h with
  | none => cases hc
  | @next cs b' d wall before admits ih =>
    obtain ⟨hcs, -, hless⟩ := List.pairwise_append.1 order
    rcases List.mem_append.1 hc with hc | hc
    · obtain ⟨b₁, wall₁, hbefore, hadmits, hafter⟩ := ih hcs hc
      have hlt := hless c hc d List.mem_cons_self
      exact ⟨b₁, wall₁, hbefore, hadmits, hafter.trans (b'.agreesAt_updateStatus wall d.failure (by omega))⟩
    · obtain rfl := List.mem_singleton.1 hc
      have hbefore := before.agreesAt fun e he => by
        have hlt := hless e he c List.mem_cons_self
        show e.id ≠ c.id
        omega
      exact ⟨b', wall, hbefore, admits, .refl c.id _⟩

/-- What the store held under the identifier of one of the tasks was updated once. -/
theorem updatedAt : UpdatedAt c.id c.failure b b' := by
  obtain ⟨b₁, wall, hbefore, hadmits, hafter⟩ := h.exists_update order hc
  exact (hbefore.updatedAt (hadmits.updatedAt wall)).of_agreesAt hafter

/-- Each of the tasks has failed. -/
theorem offers (offered : b.Offers a c) (room : b.HasRoomAt c.id) : b'.Offers .failed c.asFailed := by
  obtain ⟨b₁, wall, hbefore, hadmits, -⟩ := h.exists_update order hc
  exact offered.moved (by decide) (hadmits.of_agreesAt hbefore.symm) room (h.updatedAt order hc)

end

theorem lists (h : b.Fails cs b') (notFailed : a ≠ .failed)
    (before : ∃ wall ts, (b.perform wall (.listByStatus a)).1 = .ok ts) :
    ∃ wall ts, (b'.perform wall (.listByStatus a)).1 = .ok ts := by
  induction h with
  | none => exact before
  | next wall _ _ ih => exact lists_updateStatus ih notFailed.symm wall

/-- The store offers for another status what it offered before, but for the tasks that have failed. -/
theorem offers_iff (h : b.Fails cs b') (notFailed : a ≠ .failed) :
    b'.Offers a c ↔ b.Offers a c ∧ ∀ d ∈ cs, d.id ≠ c.id := by
  have others (hoffers : b'.Offers a c) : ∀ d ∈ cs, d.id ≠ c.id := by
    intro d hd hid
    have hfailed := h.hasStatus hd
    rw [hid] at hfailed
    exact notFailed (hoffers.hasStatus.eq hfailed)
  constructor
  · intro hoffers
    exact ⟨hoffers.of_agreesAt (h.agreesAt (others hoffers)).symm, others hoffers⟩
  · rintro ⟨hoffers, hother⟩
    exact hoffers.of_agreesAt (h.agreesAt hother)

end Fails

end Backend

end Store

end Backlog
