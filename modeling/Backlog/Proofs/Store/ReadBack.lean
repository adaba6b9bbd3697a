import Backlog.Proofs.Store.Agreement
import Backlog.Proofs.Store.Retiring

/-!
# What is read and what is checked

A row of a table is read by one set of rules and updated by another.  Who reads it takes a missing number for zero and
a status up to its first zero character; an update takes the cells as they stand, and adds to a missing number in vain.

Key facts: an update that expects the version that was read is made if and only if the status may change so, stands in
the row as it was read, and the version is not missing (`Row.Reads.admits_iff`); it is refused otherwise, whatever the
status.  When it is made the task is read as the update says, unless it was to be claimed and its attempts are missing
(`updateStatus_as_read_iff`).
-/

namespace Backlog.Store

open Sql

namespace Row

variable {r : Row} {t : Task} {u : StatusUpdate}

/-- The numbers of a row have 64 bits, as those of every cell. -/
structure InRange (r : Row) : Prop where
  version : ∀ n, r.version = .integer n → leastInteger ≤ n ∧ n ≤ mostInteger
  attempts : ∀ n, r.attempts = .integer n → leastInteger ≤ n ∧ n ≤ mostInteger

/-- What an update compares stands in the row as it was read: the status by its name, and a version at all. -/
structure Checkable (r : Row) (t : Task) : Prop where
  status : r.status = .text t.status.name
  version : r.version ≠ .null

/-- What is read of a task after an update of its row: where the attempts are missing, none is counted. -/
def taskAfter (r : Row) (u : StatusUpdate) (t : Task) : Task :=
  { u.applyTo t with attempts := if r.attempts = .null then t.attempts else (u.applyTo t).attempts }

theorem taskAfter_eq_iff : r.taskAfter u t = u.applyTo t ↔ (r.attempts = .null → u.status ≠ .processing) := by
  constructor
  · intro h hnull claims
    have hattempts : (r.taskAfter u t).attempts = (u.applyTo t).attempts := congrArg Task.attempts h
    simp [taskAfter, StatusUpdate.applyTo, hnull, claims] at hattempts
  · intro counted
    unfold taskAfter
    split
    · rename_i hnull
      have hattempts : (u.applyTo t).attempts = t.attempts := if_neg (counted hnull)
      rw [← hattempts]
    · rfl

/-- Behind the status that is read there may be more, after a zero character. -/
theorem Reads.exists_status (h : r.Reads t) : ∃ s, r.status = .text s ∧ readable s = t.status.name := by
  obtain ⟨name, hname, hstatus⟩ := h.status
  have hread : name = t.status.name := by
    unfold readStatus at hstatus
    split at hstatus
    · rename_i a ha
      cases hstatus
      exact Status.ofName?_eq_some_iff.1 ha
    · cases hstatus
  cases hcell : r.status with
  | text s =>
    rw [hcell] at hname
    cases hname
    exact ⟨s, rfl, hread⟩
  | null | integer | real =>
    rw [hcell] at hname
    cases hname

/-- An update that expects the version that was read compares it with the cell, and the status as well. -/
theorem Reads.admits_iff (h : r.Reads t) :
    r.admits (u.expecting t.version) = true ↔ t.status.canMoveTo u.status = true ∧ r.Checkable t := by
  obtain ⟨s, hs, hreadable⟩ := h.exists_status
  unfold admits
  rw [Bool.and_eq_true, List.any_eq_true]
  constructor
  · rintro ⟨⟨a, ha, hname⟩, hversion⟩
    have hname : r.status = .text a.name := of_decide_eq_true hname
    have hversion : r.version = .integer t.version := of_decide_eq_true hversion
    -- a status that is stored by its name is read as itself
    obtain rfl : s = a.name := by simpa [hs] using hname
    have hsame : a = t.status := Status.name_injective (by rw [← hreadable, readable_name])
    subst hsame
    exact ⟨Status.mem_predecessors_iff.1 ha, hname, by simp [hversion]⟩
  · rintro ⟨movable, hstatus, hversion⟩
    rcases counter_cases h.version with hcell | ⟨hcell, -⟩
    · exact ⟨⟨t.status, Status.mem_predecessors_iff.2 movable, decide_eq_true hstatus⟩, decide_eq_true hcell⟩
    · exact absurd hcell hversion

/-- The attempts after an update: where they are missing, none is counted. -/
theorem Reads.attempts_updated (h : r.Reads t) (cells : r.InRange) (below : t.attempts < mostAttempts) (u : StatusUpdate) :
    ∃ n, counter ((r.attempts.plus (if u.status = .processing then 1 else 0)).keptAs .integer) = .ok n ∧
      (r.taskAfter u t).attempts = attemptsOf n := by
  obtain ⟨n, hcounter, hattempts⟩ := h.attempts
  rcases counter_cases hcounter with hcell | ⟨hcell, rfl⟩
  · -- a number that is none would be read as the largest one
    have hbounds : 0 ≤ n ∧ n < mostAttempts ∧ t.attempts = n.toNat := by
      unfold attemptsOf at hattempts
      split at hattempts
      · have hmost : (t.attempts : Int) < mostAttempts := by exact_mod_cast below
        omega
      · omega
    have hroom := cells.attempts n hcell
    obtain ⟨hpos, hlt, hvalue⟩ := hbounds
    have hmost : (mostAttempts : Int) ≤ mostInteger := by decide
    have hleast : leastInteger ≤ 0 := by decide
    have hnew (k : Nat) (hk : k ≤ 1) : attemptsOf (n + k) = t.attempts + k := by
      unfold attemptsOf
      rw [if_pos (by omega)]
      omega
    have hnull : Cell.integer n ≠ .null := nofun
    unfold taskAfter StatusUpdate.applyTo
    dsimp only
    rw [hcell, if_neg hnull]
    refine ⟨_, counter_plus_integer (by split <;> omega), ?_⟩
    split
    · exact (hnew 1 (Nat.le_refl 1)).symm
    · exact (hnew 0 (Nat.zero_le 1)).symm
  · have hsame : (r.taskAfter u t).attempts = t.attempts := if_pos hcell
    rw [hcell, Cell.plus_null, hsame]
    exact ⟨0, rfl, hattempts⟩

theorem Reads.updated_of_version (h : r.Reads t) (cells : r.InRange) (stored : r.version = .integer t.version)
    (version : t.version < mostInteger) (attempts : t.attempts < mostAttempts)
    (started : ∀ m ∈ u.startedAt, m.HasPlainYear) (ended : ∀ m ∈ u.endedAt, m.HasPlainYear) :
    (r.updated u).Reads (r.taskAfter u t) := by
  have hversion : counter ((r.version.plus 1).keptAs .integer) = .ok (t.version + 1) := by
    have hroom := cells.version _ stored
    rw [stored]
    exact counter_plus_integer (by omega)
  have hreads := h.updated u hversion (h.attempts_updated cells attempts u)
  rw [map_asStored started, map_asStored ended] at hreads
  exact hreads

end Row

namespace Table

variable {tab : Table} {id : Int} {r : Row} {t : Task} {u : StatusUpdate}

theorem toTask_of_get (found : tab.find? id = some r) (read : tab.get id = .ok (some t)) : r.toTask = .ok t := by
  unfold get at read
  rw [found] at read
  dsimp only at read
  cases hread : r.toTask with
  | answered result =>
    rw [hread] at read
    cases result with
    | ok c =>
      cases read
      rfl
    | error e => cases read
  | crashed message =>
    rw [hread] at read
    cases read

theorem get_of_toTask (found : tab.find? id = some r) (read : r.toTask = .ok t) : tab.get id = .ok (some t) := by
  unfold get
  rw [found]
  dsimp only
  rw [read]
  rfl

/-- An update that the row of a task does not admit changes nothing. -/
theorem Ordered.updateStatus_of_missed (ordered : tab.Ordered) (found : tab.find? id = some r)
    (missed : ¬ r.admits u = true) : tab.updateStatus id u = (tab.missedUpdate id u, tab) := by
  unfold updateStatus
  dsimp only
  refine if_neg fun hany => ?_
  obtain ⟨r', hr', hhit⟩ := List.any_eq_true.1 hany
  simp only [Bool.and_eq_true, decide_eq_true_eq] at hhit
  obtain ⟨rfl, hadmits⟩ := hhit
  have hsame := ordered.find?_of_mem hr'
  rw [found] at hsame
  cases hsame
  exact missed hadmits

/-- An update that expects the version that was read, and is not made, is refused for the status. -/
theorem missedUpdate_of_read (read : tab.get id = .ok (some t)) :
    tab.missedUpdate id (u.expecting t.version) = .error (.conflict id (.transition t.status u.status)) := by
  unfold missedUpdate
  rw [read, Row.ok_bind]
  show (if t.version ≠ t.version then _ else _) = _
  rw [if_neg (by simp)]
  rfl

/-- **Main theorem.** A task is read from a table, and an update that its status allows is made in expectation of the
version that was read.  If the status stands in the row as it was read and the version is not missing, the update is
made, and the task is read as the update says, but for the attempts, which stay what they were where they are missing;
and otherwise the update is refused for the status and nothing is changed.  So the task comes to what the update says if
and only if its status stands there as it was read, its version is not missing, and its attempts are not missing when
it is claimed. -/
theorem updateStatus_as_read_iff (ordered : tab.Ordered) (found : tab.find? id = some r) (cells : r.InRange)
    (read : tab.get id = .ok (some t)) (movable : t.status.canMoveTo u.status = true)
    (version : t.version < mostInteger) (attempts : t.attempts < Row.mostAttempts)
    (started : ∀ m ∈ u.startedAt, m.HasPlainYear) (ended : ∀ m ∈ u.endedAt, m.HasPlainYear) :
    ((tab.updateStatus id (u.expecting t.version)).1 = .ok () ∧
        (tab.updateStatus id (u.expecting t.version)).2.get id = .ok (some (u.applyTo t)) ↔
      r.Checkable t ∧ (r.attempts = .null → u.status ≠ .processing)) ∧
    (r.Checkable t → (tab.updateStatus id (u.expecting t.version)).1 = .ok () ∧
      (tab.updateStatus id (u.expecting t.version)).2.get id = .ok (some (r.taskAfter u t))) ∧
    (¬ r.Checkable t → tab.updateStatus id (u.expecting t.version) =
      (.error (.conflict id (.transition t.status u.status)), tab)) := by
  have reads := Row.Reads.of_toTask (toTask_of_get found read)
  have hadmits : r.admits (u.expecting t.version) = true ↔ r.Checkable t :=
    reads.admits_iff.trans (and_iff_right movable)
  have hmade (checkable : r.Checkable t) : (tab.updateStatus id (u.expecting t.version)).1 = .ok () ∧
      (tab.updateStatus id (u.expecting t.version)).2.get id = .ok (some (r.taskAfter u t)) := by
    have stored := (counter_cases reads.version).resolve_right fun hnull => checkable.version hnull.1
    refine ⟨updateStatus_of_admitted found (hadmits.2 checkable),
      get_of_toTask (find?_updateStatus found (hadmits.2 checkable)) ?_⟩
    exact (reads.updated_of_version cells stored version attempts started ended).toTask
  have hrefused (unchecked : ¬ r.Checkable t) : tab.updateStatus id (u.expecting t.version) =
      (.error (.conflict id (.transition t.status u.status)), tab) := by
    rw [ordered.updateStatus_of_missed found (mt hadmits.1 unchecked), missedUpdate_of_read read]
  refine ⟨⟨fun ⟨hok, hread⟩ => ?_, fun ⟨checkable, counted⟩ => ?_⟩, hmade, hrefused⟩
  · have checkable : r.Checkable t := by
      by_contra unchecked
      rw [hrefused unchecked] at hok
      cases hok
    have hsame := (hmade checkable).2
    rw [hread] at hsame
    have htasks := Option.some.inj (Except.ok.inj (Outcome.answered.inj hsame))
    exact ⟨checkable, Row.taskAfter_eq_iff.1 htasks.symm⟩
  · obtain ⟨hok, hread⟩ := hmade checkable
    rw [Row.taskAfter_eq_iff.2 counted] at hread
    exact ⟨hok, hread⟩

/-- A table that was made without any condition on its values, with a task that waits. -/
def oneWaiting (version : Cell) : Table :=
  ⟨looseColumns,
    [⟨1, .text "walk", .text "pending", .text "u", .text "2000-01-01T00:00:00Z", .null, .null, version, .integer 0⟩], 1⟩

/-- The task of this table. -/
def waiting : Task := ⟨1, "walk", .pending, .ofStored "2000-01-01T00:00:00Z", none, none, "u", 0, 0⟩

/-- The task of this table can be claimed if its version is there. -/
theorem updateStatus_as_read_oneWaiting :
    (oneWaiting (.integer 0)).get 1 = .ok (some waiting) ∧ waiting.status.canMoveTo .processing = true ∧
      waiting.version < mostInteger ∧ waiting.attempts < Row.mostAttempts ∧
      ((oneWaiting (.integer 0)).updateStatus 1 ((StatusUpdate.ofStatus .processing).expecting 0)).2.get 1 =
        .ok (some ((StatusUpdate.ofStatus .processing).applyTo waiting)) := by
  have ordered : (oneWaiting (.integer 0)).Ordered := ⟨List.pairwise_singleton _ _, by simp [oneWaiting]⟩
  have cells : Row.InRange ⟨1, .text "walk", .text "pending", .text "u", .text "2000-01-01T00:00:00Z", .null, .null,
      .integer 0, .integer 0⟩ := by
    constructor <;> rintro n ⟨⟩ <;> decide
  have read : (oneWaiting (.integer 0)).get 1 = .ok (some waiting) := rfl
  have movable : waiting.status.canMoveTo (StatusUpdate.ofStatus .processing).status = true := rfl
  have main := updateStatus_as_read_iff ordered rfl cells read movable (by decide) (by simp [waiting, Row.mostAttempts])
    (by simp [StatusUpdate.ofStatus]) (by simp [StatusUpdate.ofStatus])
  exact ⟨read, movable, by decide, by simp [waiting, Row.mostAttempts], (main.1.2 ⟨⟨rfl, nofun⟩, nofun⟩).2⟩

/-- If its version is missing it is shown as a task that may be claimed, and the claim is refused as one that is not
allowed, over and over. -/
theorem never_claimed_without_version :
    (oneWaiting .null).get 1 = .ok (some waiting) ∧ waiting.status.canMoveTo .processing = true ∧
      (oneWaiting .null).updateStatus 1 ((StatusUpdate.ofStatus .processing).expecting waiting.version) =
        (.error (.conflict 1 (.transition .pending .processing)), oneWaiting .null) :=
  ⟨rfl, rfl, rfl⟩

end Table

end Backlog.Store
