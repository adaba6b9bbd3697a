/-!
# The status of a task

A task waits (`pending`), is worked on (`processing`), and ends `completed` or `failed`.  Work that was given up goes
from `processing` back to `pending`.

Key facts: the two ways to state the allowed moves agree (`mem_predecessors_iff`), an ended task does not move
(`not_canMoveTo_of_terminal`), and `ofName?` reads exactly the names (`ofName?_eq_some_iff`).
-/

namespace Backlog

/-- Where a task is in its life. -/
inductive Status where
  | pending
  | processing
  | completed
  | failed
deriving DecidableEq, Repr, Inhabited

namespace Status

/-- The word that stands for a status in stored rows and in messages. -/
def name : Status → String
  | pending => "pending"
  | processing => "processing"
  | completed => "completed"
  | failed => "failed"

/-- The status that a word stands for. -/
def ofName? (s : String) : Option Status :=
  if s = "pending" then some pending
  else if s = "processing" then some processing
  else if s = "completed" then some completed
  else if s = "failed" then some failed
  else none

/-- The complaint about a word that stands for no status. -/
def unknown (s : String) : String := "unknown task status: " ++ s

/-- Whether a task may move from one status to another in one step. -/
def canMoveTo : Status → Status → Bool
  | pending, processing => true
  | pending, failed => true
  | processing, completed => true
  | processing, pending => true
  | processing, failed => true
  | _, _ => false

/-- The statuses from which a task may move to the given one. -/
def predecessors : Status → List Status
  | pending => [processing]
  | processing => [pending]
  | completed => [processing]
  | failed => [pending, processing]

/-- Whether a task with this status has ended. -/
def isTerminal : Status → Bool
  | completed => true
  | failed => true
  | _ => false

theorem mem_predecessors_iff {a b : Status} : a ∈ b.predecessors ↔ a.canMoveTo b = true := by
  cases a <;> cases b <;> decide

theorem not_canMoveTo_of_terminal {a : Status} (h : a.isTerminal = true) (b : Status) : a.canMoveTo b = false := by
  cases a <;> first | rfl | (simp [isTerminal] at h)

@[simp] theorem ofName?_name (a : Status) : ofName? a.name = some a := by
  cases a <;> decide

theorem ofName?_eq_some_iff {s : String} {a : Status} : ofName? s = some a ↔ s = a.name := by
  constructor
  · intro h
    unfold ofName? at h
    repeat' split at h
    all_goals first | (injection h with h; subst h; assumption) | (exact absurd h (by simp))
  · rintro rfl
    exact ofName?_name a

theorem name_injective {a b : Status} (h : a.name = b.name) : a = b :=
  Option.some.inj ((ofName?_name a).symm.trans (ofName?_eq_some_iff.2 h))

end Status

end Backlog
