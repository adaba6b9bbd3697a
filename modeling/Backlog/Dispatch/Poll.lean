import Backlog.Dispatch.Enqueue
import Backlog.Dispatch.Retirement

/-!
# Polling

The dispatcher lists the waiting tasks and hands those that the queue does not track to the workers, in the order of
the listing, waiting for room in the channel.  A waiting task that has used up its attempts is retired instead.

Key facts: a poll whose token fires while it waits for room forgets that task and hands over no other
(`Poll.afterEnqueue`), and a poll that cannot list the tasks changes nothing but the counters.
-/

namespace Backlog.Dispatch

/-- How far a poll has come. -/
inductive Poll where
  /-- The poll is counted. -/
  | starting
  /-- The waiting tasks are listed. -/
  | listing
  /-- The listing failed, and the failure is counted. -/
  | failing (error : StoreError)
  /-- The queue is asked for the next task. -/
  | checking (task : Task) (rest : List Task) (count : Nat)
  /-- The task has used up its attempts and is retired. -/
  | retiring (task : Task) (rest : List Task) (count : Nat) (stage : Retirement)
  /-- The task is put into the queue. -/
  | enqueueing (task : Task) (rest : List Task) (count : Nat) (stage : Enqueue)
  /-- A task was handed over and is counted. -/
  | counting (rest : List Task) (count : Nat)
  /-- The poll is over; it says how many tasks were handed over. -/
  | done (result : Except StoreError Nat)

namespace Poll

/-- The poll with the tasks that are left, after so many were handed over. -/
def onward (count : Nat) : List Task → Poll
  | [] => .done (.ok count)
  | task :: rest => .checking task rest count

/-- What follows the listing. -/
def afterListing : Except StoreError (List Task) → Poll
  | .ok tasks => onward 0 tasks
  | .error e => .failing e

/-- What is done with a task that the queue tracks or does not. -/
def afterCheck (s : Settings) (task : Task) (rest : List Task) (count : Nat) (tracked : Bool) : Poll :=
  if tracked then onward count rest
  else if s.maxAttempts ≤ task.attempts then .retiring task rest count .updating
  else .enqueueing task rest count .tracking

/-- What follows a step of a retirement. -/
def afterRetirement (task : Task) (rest : List Task) (count : Nat) : Retirement → Poll
  | .done _ => onward count rest
  | stage => .retiring task rest count stage

/-- What follows a step of a task on its way into the queue. -/
def afterEnqueue (task : Task) (rest : List Task) (count : Nat) : Enqueue → Poll
  | .done true => .counting rest (count + 1)
  | .done false => .done (.ok count)
  | stage => .enqueueing task rest count stage

/-- The next step of a poll. -/
def next (s : Settings) : Poll → Step Poll
  | starting => .record .poll .listing
  | listing => .call (.listByStatus .pending) (some s.queryTimeout) (some (.done (.ok 0))) afterListing
  | failing e => .record .pollError (.done (.error e))
  | checking task rest count => .isTracked task.id (afterCheck s task rest count)
  | retiring task rest count stage => (stage.next s task).map (afterRetirement task rest count)
  | enqueueing task rest count stage => (stage.next true task).map (afterEnqueue task rest count)
  | counting rest count => .record .enqueued (onward count rest)
  | done _ => .stop

end Poll

end Backlog.Dispatch
