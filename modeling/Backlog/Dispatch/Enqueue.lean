import Backlog.Dispatch.Step

/-!
# Enqueueing

A task is put into the queue: first the queue is made to track it, then it is sent, waiting for room in the channel.
Whoever can be interrupted makes the queue forget the task again when the token fires before there is room.

Key facts: a task is tracked before it is sent (`Enqueue.next`), so that whoever asks the queue for it finds it there
as long as its sender waits.
-/

namespace Backlog.Dispatch

/-- How far a task has come on its way into the queue. -/
inductive Enqueue where
  | tracking
  | sending
  /-- The token has fired, and the queue is made to forget the task. -/
  | withdrawing
  /-- It is over; it says whether the task was sent. -/
  | done (sent : Bool)
deriving DecidableEq, Repr

namespace Enqueue

/-- The next step on the way of a task, which can be interrupted or not. -/
def next (interruptible : Bool) (task : Task) : Enqueue → Step Enqueue
  | tracking => .track task .sending
  | sending => .send task (if interruptible then some .withdrawing else none) (.done true)
  | withdrawing => .untrack task.id fun _ => .done false
  | done _ => .stop

end Enqueue

end Backlog.Dispatch
