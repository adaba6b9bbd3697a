import Backlog.Queue.Channel

/-!
# The queue

A channel of tasks with a register of the tasks that are queued or in the hands of a worker.  A task is entered in the
register before it is sent and stays there until it is struck off, so that nobody hands it over twice.

Key facts: a task that is entered again replaces its entry and counts as the youngest (`Queue.track`).
-/

namespace Backlog

/-- An entry of the register. -/
structure QueueEntry where
  task : Task
  /-- The number of the entry; later entries have larger ones. -/
  sequence : Nat
  enqueuedAt : Timestamp
deriving DecidableEq, Repr

/-- A channel with its register; the entries stand in the order of their numbers. -/
structure Queue where
  channel : Channel
  entries : List QueueEntry
  nextSequence : Nat
deriving DecidableEq, Repr

namespace Queue

/-- The empty queue with room for so many tasks in its channel. -/
def empty (capacity : Nat) : Queue := ⟨.empty capacity, [], 0⟩

/-- Enters a task in the register. -/
def track (q : Queue) (now : Timestamp) (task : Task) : Queue :=
  { q with
    entries := (q.entries.filter fun e => e.task.id ≠ task.id) ++ [⟨task, q.nextSequence, now⟩]
    nextSequence := q.nextSequence + 1 }

/-- Whether a task is entered in the register. -/
def contains (q : Queue) (id : Int) : Bool := q.entries.any fun e => e.task.id = id

/-- Strikes a task off the register, and says whether it was there. -/
def untrack (q : Queue) (id : Int) : Bool × Queue :=
  (q.contains id, { q with entries := q.entries.filter fun e => e.task.id ≠ id })

/-- The number of entries. -/
def size (q : Queue) : Nat := q.entries.length

/-- The tasks in the register by identifier. -/
def tasksById (q : Queue) : List Task := (q.entries.map fun e => e.task).mergeSort fun a b => a.id ≤ b.id

theorem contains_track (q : Queue) (now : Timestamp) (task : Task) (id : Int) :
    (q.track now task).contains id = true ↔ id = task.id ∨ q.contains id = true := by
  simp only [contains, track, List.any_append, List.any_cons, List.any_nil, Bool.or_false, Bool.or_eq_true,
    List.any_eq_true, List.mem_filter, decide_eq_true_eq]
  constructor
  · rintro (⟨e, ⟨he, _⟩, h⟩ | h)
    · exact .inr ⟨e, he, h⟩
    · exact .inl h.symm
  · rintro (h | ⟨e, he, h⟩)
    · exact .inr h.symm
    · by_cases hid : e.task.id = task.id
      · exact .inr (hid ▸ h)
      · exact .inl ⟨e, ⟨he, hid⟩, h⟩

theorem contains_untrack (q : Queue) (id j : Int) :
    (q.untrack id).2.contains j = true ↔ j ≠ id ∧ q.contains j = true := by
  simp only [contains, untrack, List.any_eq_true, List.mem_filter, decide_eq_true_eq]
  constructor
  · rintro ⟨e, ⟨he, hne⟩, rfl⟩
    exact ⟨hne, e, he, rfl⟩
  · rintro ⟨hne, e, he, rfl⟩
    exact ⟨e, ⟨he, hne⟩, rfl⟩

end Queue

end Backlog
