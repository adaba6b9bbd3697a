import Backlog.Dispatch.Step
import Backlog.Settings

/-!
# Retirement

The dispatcher takes a task out of the status in which it has listed it: back to waiting, or, if the task has used up
its attempts, to failure.  The update is made once, on the condition that the task still has the listed version.
-/

namespace Backlog.Dispatch

/-- How far the retirement of a task has come. -/
inductive Retirement where
  | updating
  /-- The update was made and is counted. -/
  | counting
  /-- The owner of the task is told, at a moment that is read first. -/
  | dating
  | announcing (now : Timestamp)
  /-- The retirement is over; it says whether the update was made. -/
  | done (moved : Bool)

namespace Retirement

/-- The status to which a task is retired. -/
def target (s : Settings) (task : Task) : Status := if s.maxAttempts ≤ task.attempts then .failed else .pending

/-- The update that retires a task. -/
def update (s : Settings) (task : Task) : StatusUpdate := (StatusUpdate.ofStatus (target s task)).expecting task.version

/-- What is counted when a task has been retired. -/
def count (s : Settings) (task : Task) : Count := if target s task = .failed then .deadLettered else .reclaimed

/-- What follows the update. -/
def afterUpdate : Except StoreError Unit → Retirement
  | .ok () => .counting
  | .error _ => .done false

/-- The next step of the retirement of a task. -/
def next (s : Settings) (task : Task) : Retirement → Step Retirement
  | updating =>
    .call (.updateStatus task.id (update s task)) (some s.storeTimeout) none afterUpdate
  | counting => .record (count s task) .dating
  | dating => .readWallClock .announcing
  | announcing now => .notify task.userId (.ofTask task (target s task) now) (.done true)
  | done _ => .stop

end Retirement

end Backlog.Dispatch
