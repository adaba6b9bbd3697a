import Backlog.Proofs.Store.ReadBack
import Backlog.Proofs.Timestamp.Zoneless

/-!
# Moments in a table

A table keeps the moments of a task as texts.  Whoever reads a task reads its moments from these texts, by a strict
form and then by the form that databases write, and takes a text that is in neither form for the earliest moment.

Key facts: a moment of the years 0 to 9999 that an update gives is read from the table as it was given, to the
nanosecond and in a leap second too, and any other is read as the earliest one (`times_of_updated`); and an update
leaves a task that could be read one that can be read (`exists_task_of_updated`).
-/

namespace Backlog

/-- A stored moment is read as itself, unless its year carries a sign. -/
theorem Timestamp.asStored_eq (m : Timestamp) : m.asStored = if m.HasPlainYear then m else .earliest := by
  split
  · rename_i plain
    exact Store.asStored_of_hasPlainYear plain
  · rename_i signed
    unfold asStored
    rw [Store.Row.readable_eq_self m.nul_notMem_storedText, ofStored_storedText_of_signed signed]

namespace Store

open Sql

variable {r : Row} {t task : Task} {u : StatusUpdate} {tab : Table} {id : Int}

namespace Row

/-- The time that is read from a cell after an update has given one is that one as it was stored. -/
theorem time_orElse {new o : Option Timestamp} (c : Cell)
    (h : ∃ text, optionalText (((new.map fun t => Cell.text t.storedText).getD .null).orElse c) = .ok text ∧
      o = timeOfText? text) : ∀ m ∈ new, o = some m.asStored := by
  rintro m hm
  obtain rfl := Option.mem_def.1 hm
  obtain ⟨text, htext, rfl⟩ := h
  have hstored : some (readable m.storedText) = text := Except.ok.inj (Outcome.answered.inj htext)
  rw [← hstored, timeOfText?_storedText]

/-- A task that is read after an update shows the moments that the update has given. -/
theorem times_of_updated (reads : (r.updated u).Reads task) :
    (∀ m ∈ u.startedAt, task.startedAt = some m.asStored) ∧ ∀ m ∈ u.endedAt, task.endedAt = some m.asStored :=
  ⟨time_orElse r.startedAt reads.startedAt, time_orElse r.endedAt reads.endedAt⟩

/-- A number that can be read can be read after something is added to it, if there is room for the sum. -/
theorem exists_counter_plus {c : Cell} {n k : Int} (h : counter c = .ok n)
    (room : ∀ m, c = .integer m → leastInteger ≤ m + k ∧ m + k ≤ mostInteger) :
    ∃ m, counter ((c.plus k).keptAs .integer) = .ok m := by
  rcases counter_cases h with rfl | ⟨rfl, -⟩
  · exact ⟨_, counter_plus_integer (room n rfl)⟩
  · exact ⟨0, rfl⟩

/-- A row that could be read can be read after an update. -/
theorem exists_task_of_updated (reads : r.Reads t) (room : r.HasRoom)
    (countable : ∀ n, r.attempts = .integer n → n < mostInteger) (u : StatusUpdate) :
    ∃ task, (r.updated u).Reads task := by
  obtain ⟨n, hattempts, -⟩ := reads.attempts
  obtain ⟨version, hversion⟩ := exists_counter_plus (k := 1) reads.version fun m hm => by
    have hroom := room.version m hm
    omega
  obtain ⟨attempts, hcount⟩ := exists_counter_plus (k := if u.status = .processing then 1 else 0) hattempts
    fun m hm => by
      have hroom := room.attempts m hm
      have hlt := countable m hm
      split <;> omega
  exact ⟨_, reads.updated u hversion ⟨attempts, hcount, rfl⟩⟩

end Row

namespace Table

/-- An update that was made has updated the row of the task. -/
theorem find?_of_updateStatus_ok (ordered : tab.Ordered) (made : (tab.updateStatus id u).1 = .ok ()) :
    ∃ r, tab.find? id = some r ∧ (tab.updateStatus id u).2.find? id = some (r.updated u) := by
  have hmade : ((Backend.table tab).perform .earliest (.updateStatus id u)).1 = .ok () := made
  have hordered : (Backend.table tab).Ordered := ordered
  obtain ⟨r, hr, hadmits⟩ := (hordered.updateStatus_ok_iff _).1 hmade
  exact ⟨r, hr, find?_updateStatus hr hadmits⟩

/-- **Main theorem.** A moment of the years 0 to 9999, in a leap second or not, is found by the strict reader in the
text with which it is stored; it is also read from what a database writes for it, with any fraction that says its
nanoseconds.  A moment of another year is found in its text by neither reader, and the earliest moment is read in its
place.  So a task that is read after an update has been made shows the moments that the update has given, exactly, if
they are of the years 0 to 9999; and a task that could be read before can be read then, if its numbers have room. -/
theorem stored_moments_read_back :
    (∀ m : Timestamp, m.HasPlainYear → Timestamp.ofStrict? m.storedText = some m ∧ .ofStored m.storedText = m) ∧
    (∀ (m : Timestamp) (fraction : List Char), m.HasPlainYear → Timestamp.SaysNanos (m.nano % 1000000000) fraction →
      Timestamp.ofZoneless? (m.databaseText fraction) = some m ∧ .ofStored (m.databaseText fraction) = m) ∧
    (∀ m : Timestamp, ¬ m.HasPlainYear → Timestamp.ofStrict? m.storedText = none ∧
      Timestamp.ofZoneless? m.storedText = none ∧ .ofStored m.storedText = Timestamp.earliest) ∧
    ∀ (tab : Table) (id : Int) (u : StatusUpdate), tab.Ordered → (tab.updateStatus id u).1 = .ok () →
      (∀ task, (tab.updateStatus id u).2.get id = .ok (some task) →
        (∀ m ∈ u.startedAt, task.startedAt = some (if m.HasPlainYear then m else .earliest)) ∧
        ∀ m ∈ u.endedAt, task.endedAt = some (if m.HasPlainYear then m else .earliest)) ∧
      ∀ r t, tab.find? id = some r → tab.get id = .ok (some t) → r.HasRoom →
        (∀ n, r.attempts = .integer n → n < mostInteger) →
        ∃ task, (tab.updateStatus id u).2.get id = .ok (some task) := by
  refine ⟨fun m plain => ⟨Timestamp.ofStrict?_storedText plain, Timestamp.ofStored_storedText plain⟩,
    fun m fraction plain hsays =>
      ⟨Timestamp.ofZoneless?_databaseText hsays, Timestamp.ofStored_databaseText plain hsays⟩,
    fun m signed => ⟨Timestamp.ofStrict?_storedText_of_signed signed, m.ofZoneless?_storedText,
      Timestamp.ofStored_storedText_of_signed signed⟩, fun tab id u ordered made => ?_⟩
  obtain ⟨r, hr, hafter⟩ := find?_of_updateStatus_ok ordered made
  refine ⟨fun task hread => ?_, fun r' t hr' hread room countable => ?_⟩
  · obtain ⟨hstarted, hended⟩ := Row.times_of_updated (Row.Reads.of_toTask (toTask_of_get hafter hread))
    exact ⟨fun m hm => by rw [hstarted m hm, m.asStored_eq], fun m hm => by rw [hended m hm, m.asStored_eq]⟩
  · rw [hr] at hr'
    cases hr'
    obtain ⟨task, htask⟩ := Row.exists_task_of_updated (Row.Reads.of_toTask (toTask_of_get hr hread)) room countable u
    exact ⟨task, get_of_toTask hafter htask.toTask⟩

/-- The middle of the leap second at the end of June 2015. -/
def leapMoment : Timestamp := ⟨1435708799, 1500000000, by decide, by decide, by decide⟩

/-- The beginning of the year 10000. -/
def farMoment : Timestamp := ⟨253402300800, 0, by decide, by decide, by decide⟩

/-- The first of these moments is read back from both forms and from a table, and the second one is lost. -/
theorem stored_moments_read_back_leapMoment :
    leapMoment.HasPlainYear ∧ .ofStored leapMoment.storedText = leapMoment ∧
      .ofStored (leapMoment.databaseText ['.', '5']) = leapMoment ∧
      ¬ farMoment.HasPlainYear ∧ .ofStored farMoment.storedText = Timestamp.earliest ∧
      ∃ task, ((oneWaiting (.integer 0)).updateStatus 1 ⟨.processing, some leapMoment, some farMoment, none⟩).2.get 1 =
          .ok (some task) ∧ task.startedAt = some leapMoment ∧ task.endedAt = some .earliest := by
  obtain ⟨strict, zoneless, signed, kept⟩ := stored_moments_read_back
  have plain : leapMoment.HasPlainYear := by decide
  have far : ¬ farMoment.HasPlainYear := by decide
  have half : Timestamp.SaysNanos (leapMoment.nano % 1000000000) ['.', '5'] :=
    .digits ['5'] (by decide) (List.forall_mem_singleton.2 rfl) (by decide)
  have ordered : (oneWaiting (.integer 0)).Ordered := ⟨List.pairwise_singleton _ _, by simp [oneWaiting]⟩
  have room : Row.HasRoom ⟨1, .text "walk", .text "pending", .text "u", .text "2000-01-01T00:00:00Z", .null, .null,
      .integer 0, .integer 0⟩ := by
    constructor <;> rintro n ⟨⟩ <;> decide
  obtain ⟨shown, readable⟩ := kept (oneWaiting (.integer 0)) 1 ⟨.processing, some leapMoment, some farMoment, none⟩
    ordered rfl
  obtain ⟨task, hread⟩ := readable _ waiting rfl rfl room (by rintro n ⟨⟩; decide)
  obtain ⟨started, ended⟩ := shown task hread
  refine ⟨plain, (strict _ plain).2, (zoneless _ _ plain half).2, far, (signed _ far).2.2, task, hread, ?_, ?_⟩
  · rw [started leapMoment rfl, if_pos plain]
  · rw [ended farMoment rfl, if_neg far]

end Table

end Store

end Backlog
