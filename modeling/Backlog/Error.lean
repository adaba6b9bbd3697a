import Backlog.Duration
import Backlog.Task.Status

/-!
# Errors

What can go wrong, by cause, and the words that a message uses for it.

Key facts: the causes that may pass on their own are those of `StoreError.isTransient`; the wording lives in
`StoreError.message` and its companions and nowhere else.
-/

namespace Backlog

/-- Why an update of a task was refused. -/
inductive ConflictReason where
  /-- The task has another version than the caller expected. -/
  | version (expected found : Int)
  /-- The task may not move between the two statuses. -/
  | transition (source target : Status)
  /-- A reason given in words. -/
  | described (text : String)
deriving DecidableEq, Repr

/-- The reason in words. -/
def ConflictReason.message : ConflictReason → String
  | version expected found => s!"expected version {expected}, found {found}"
  | transition source target => s!"cannot move from {source.name} to {target.name}"
  | described text => text

/-- Why a call of a store failed. -/
inductive StoreError where
  /-- The database could not be opened or reached. -/
  | unavailable (text : String)
  /-- The call did not answer within its limit. -/
  | timeout (operation : String) (limit : Duration)
  /-- The database could not carry out a statement or read a row. -/
  | query (text : String)
  /-- There is no such task. -/
  | notFound (id : Int)
  /-- The task did not have the state that the update requires. -/
  | conflict (id : Int) (reason : ConflictReason)
  /-- The schema could not be brought up to date. -/
  | migration (text : String)
  /-- A stored row does not stand for a task. -/
  | serialization (text : String)
deriving DecidableEq, Repr

namespace StoreError

/-- The message that reports a failed call. -/
def message : StoreError → String
  | unavailable text => "Store unavailable: " ++ text
  | timeout operation limit => "Store call " ++ operation ++ " timed out after " ++ limit.text
  | query text => "Query failed: " ++ text
  | notFound id => s!"Task {id} not found"
  | conflict id reason => s!"Update conflict on task {id}: " ++ reason.message
  | migration text => "Migration failed: " ++ text
  | serialization text => "Serialization error: " ++ text

/-- Whether the same call may succeed when it is made again. -/
def isTransient : StoreError → Bool
  | unavailable _ => true
  | timeout .. => true
  | query _ => true
  | _ => false

/-- Whether the error says that the task has changed or is gone, so that somebody else deals with it. -/
def isSuperseded : StoreError → Bool
  | conflict .. => true
  | notFound _ => true
  | _ => false

/-- Whether the error is a refused update. -/
def isConflict : StoreError → Bool
  | conflict .. => true
  | _ => false

theorem isConflict_of_isTransient {e : StoreError} (h : e.isTransient = true) : e.isConflict = false := by
  cases e <;> first
    | rfl
    | cases h

end StoreError

/-- A setting whose value cannot be used: its full name and what is wrong with it. -/
structure SettingError where
  key : String
  detail : String
deriving DecidableEq, Repr

/-- The message that reports an unusable setting. -/
def SettingError.message (e : SettingError) : String :=
  "Invalid configuration value for " ++ e.key ++ ": " ++ e.detail

/-- Why a task was not put into the queue: its caller stopped waiting for room. -/
structure QueueError where
  id : Int
deriving DecidableEq, Repr

/-- The message that reports a task that was not put into the queue. -/
def QueueError.message (e : QueueError) : String := s!"Enqueue of task {e.id} cancelled"

/-- Why the loops did not end in good order. -/
inductive ShutdownError where
  /-- So many loops were still running when the time of grace was over. -/
  | timeout (remaining : Nat) (grace : Duration)
  /-- A loop had broken down. -/
  | crashed (text : String)
deriving DecidableEq, Repr

/-- The message that reports a bad shutdown. -/
def ShutdownError.message : ShutdownError → String
  | timeout remaining grace =>
    s!"{remaining} background loop(s) still running after " ++ grace.text ++ "; aborted"
  | crashed text => "Background loop panicked: " ++ text

/-- Any error of the library. -/
inductive Error where
  | setting (e : SettingError)
  | store (e : StoreError)
  | queue (e : QueueError)
  | shutdown (e : ShutdownError)
deriving DecidableEq, Repr

/-- The message that reports any error: the area it comes from, then what happened. -/
def Error.message : Error → String
  | setting e => "Configuration error: " ++ e.message
  | store e => "Database error: " ++ e.message
  | queue e => "Queue error: " ++ e.message
  | shutdown e => "Runtime error: " ++ e.message

end Backlog
