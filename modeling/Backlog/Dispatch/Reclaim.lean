import Backlog.Dispatch.Retirement

/-!
# Reclaiming

The dispatcher takes back the tasks in processing on which nobody works any more: those that the queue does not track
and whose start lies a threshold or longer in the past.  A start in the future counts as old only if the threshold is
empty, and a task without a start is always old.

Key facts: the token is looked at before every task (`Reclaim.guarding`), and a task that cannot be retired does not
keep the others from it.
-/

namespace Backlog.Dispatch

/-- How far a pass over the tasks in processing has come. -/
inductive Reclaim where
  /-- The tasks in processing are listed. -/
  | listing
  /-- They are listed, and the wall clock is read. -/
  | dating (tasks : List Task)
  /-- The token is looked at before the next task. -/
  | guarding (now : Timestamp) (task : Task) (rest : List Task) (count : Nat)
  /-- The queue is asked for the task. -/
  | checking (now : Timestamp) (task : Task) (rest : List Task) (count : Nat)
  /-- The task is retired. -/
  | retiring (now : Timestamp) (task : Task) (rest : List Task) (count : Nat) (stage : Retirement)
  /-- The pass is over; it says how many tasks were moved. -/
  | done (result : Except StoreError Nat)

namespace Reclaim

/-- Whether a task has been in processing for too long. -/
def isStale (threshold : Duration) (now : Timestamp) (task : Task) : Bool :=
  match task.startedAt with
  | none => true
  | some start =>
    let age := now.nanosSince start
    if age < 0 then threshold.isZero else threshold.nanos ≤ age.toNat

/-- What follows the listing. -/
def afterListing : Except StoreError (List Task) → Reclaim
  | .ok tasks => .dating tasks
  | .error e => .done (.error e)

/-- The pass over the tasks that are left, after so many were moved. -/
def onward (now : Timestamp) (count : Nat) : List Task → Reclaim
  | [] => .done (.ok count)
  | task :: rest => .guarding now task rest count

/-- What follows a step of a retirement. -/
def afterRetirement (now : Timestamp) (task : Task) (rest : List Task) (count : Nat) : Retirement → Reclaim
  | .done moved => onward now (if moved then count + 1 else count) rest
  | stage => .retiring now task rest count stage

/-- The next step of a pass with a threshold. -/
def next (s : Settings) (threshold : Duration) : Reclaim → Step Reclaim
  | listing => .call (.listByStatus .processing) (some s.queryTimeout) (some (.done (.ok 0))) afterListing
  | dating tasks => .readWallClock fun now => onward now 0 tasks
  | guarding now task rest count =>
    .isCancelled fun cancelled => if cancelled then .done (.ok count) else .checking now task rest count
  | checking now task rest count =>
    .isTracked task.id fun tracked =>
      if !tracked && isStale threshold now task then .retiring now task rest count .updating
      else onward now count rest
  | retiring now task rest count stage => (stage.next s task).map (afterRetirement now task rest count)
  | done _ => .stop

end Reclaim

end Backlog.Dispatch
