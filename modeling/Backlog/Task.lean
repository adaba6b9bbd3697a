import Backlog.Task.Status
import Backlog.Timestamp

/-!
# Tasks

A task as a store keeps it, the request to create one, the partial update of its status, and the notice that a
status has changed.

The version and the attempts are numbers without an upper bound.  Where they are kept in 64 and in 32 bits, what is said
of them holds as long as a task is claimed less than 2^32 times.

Key facts: an update takes effect through `StatusUpdate.applyTo`, which keeps the identity of the task, adds one to
its version, and adds one to its attempts exactly when the task is claimed.
-/

namespace Backlog

/-- A task.  The numbers are the store's: an identifier, the count of status changes, and the count of claims. -/
structure Task where
  id : Int
  text : String
  status : Status
  createdAt : Timestamp
  startedAt : Option Timestamp
  endedAt : Option Timestamp
  userId : String
  version : Int
  attempts : Nat
deriving DecidableEq, Repr, Inhabited

/-- What a caller says about a task that is to be created. -/
structure NewTask where
  text : String
  userId : String
deriving DecidableEq, Repr, Inhabited

/-- A change of status.  A time that is not given leaves the stored one as it is; an expected version makes the
change conditional. -/
structure StatusUpdate where
  status : Status
  startedAt : Option Timestamp
  endedAt : Option Timestamp
  expectedVersion : Option Int
deriving DecidableEq, Repr, Inhabited

namespace StatusUpdate

/-- A change of status and nothing else. -/
def ofStatus (status : Status) : StatusUpdate := ⟨status, none, none, none⟩

/-- The claim of a task, which starts at the given moment. -/
def claim (startedAt : Timestamp) : StatusUpdate := ⟨.processing, some startedAt, none, none⟩

/-- The completion of a task, which ends at the given moment. -/
def completion (endedAt : Timestamp) : StatusUpdate := ⟨.completed, none, some endedAt, none⟩

/-- The same change on the condition that the task has this version. -/
def expecting (u : StatusUpdate) (version : Int) : StatusUpdate := { u with expectedVersion := some version }

/-- The task after a change of status. -/
def applyTo (u : StatusUpdate) (t : Task) : Task :=
  { t with
    status := u.status
    startedAt := u.startedAt.or t.startedAt
    endedAt := u.endedAt.or t.endedAt
    attempts := if u.status = .processing then t.attempts + 1 else t.attempts
    version := t.version + 1 }

@[simp] theorem applyTo_id (u : StatusUpdate) (t : Task) : (u.applyTo t).id = t.id := rfl

@[simp] theorem applyTo_status (u : StatusUpdate) (t : Task) : (u.applyTo t).status = u.status := rfl

@[simp] theorem applyTo_version (u : StatusUpdate) (t : Task) : (u.applyTo t).version = t.version + 1 := rfl

end StatusUpdate

/-- The notice that a task has moved to a status. -/
structure StatusEvent where
  kind : String
  taskId : Int
  text : String
  status : Status
  timestamp : Timestamp
deriving DecidableEq, Repr, Inhabited

namespace StatusEvent

/-- The kind of every notice about a changed status. -/
def statusChanged : String := "task_status_changed"

/-- The notice that a task has just moved to a status. -/
def ofTask (t : Task) (status : Status) (at_ : Timestamp) : StatusEvent :=
  ⟨statusChanged, t.id, t.text, status, at_⟩

end StatusEvent

end Backlog
