import Backlog.Dispatch.Transition

/-!
# Workers

A worker takes tasks from the channel one by one.  It claims a task, works on it for a while, completes it, and makes
the queue forget it.  The end of the work lies at least a microsecond after its start.

Key facts: a task that changed or vanished before its claim is left alone without a trace; any other failed update
counts the task as abandoned; and a worker that is told to stop during its work leaves the task as it is
(`Worker.next`).
-/

namespace Backlog.Dispatch

/-- Where a worker stands. -/
inductive Worker where
  /-- It waits for a task. -/
  | idle
  /-- It has taken a task. -/
  | accepted (task : Task)
  /-- It claims the task, with the moment at which the work starts. -/
  | claiming (task : Task) (start : Timestamp) (transition : Transition)
  /-- It has counted the claim and tells the owner of it. -/
  | announcing (task : Task) (start : Timestamp)
  /-- It draws the time that the work takes. -/
  | drawing (task : Task) (start : Timestamp)
  /-- It works for so long. -/
  | working (task : Task) (start : Timestamp) (span : Duration)
  /-- It has done the work. -/
  | finishing (task : Task) (start : Timestamp)
  /-- It completes the task, with the moment at which the work ended. -/
  | completing (task : Task) (start finish : Timestamp) (transition : Transition)
  /-- It has completed the task and counts the completion. -/
  | counting (task : Task) (finish : Timestamp)
  /-- It tells the owner of the completion. -/
  | closing (task : Task) (finish : Timestamp)
  /-- It is done with a task, one way or another, and makes the queue forget it. -/
  | releasing (id : Int)
  /-- It has stopped. -/
  | stopped

namespace Worker

/-- The update by which a worker claims a task. -/
def claim (task : Task) (start : Timestamp) : StatusUpdate := (StatusUpdate.claim start).expecting task.version

/-- The update by which a worker completes a task that it has claimed. -/
def completion (task : Task) (finish : Timestamp) : StatusUpdate :=
  (StatusUpdate.completion finish).expecting (task.version + 1)

/-- The end of work that started and was done at these moments. -/
def finishOf (start done : Timestamp) : Timestamp := done.latest start.addMicro

/-- The next step of a worker. -/
def next (s : Settings) : Worker → Step Worker
  | idle => .receive (some .stopped) .accepted
  | accepted task => .readWallClock fun start => .claiming task start (.start s)
  | claiming task start (.done (.ok ())) => .record .claimed (.announcing task start)
  | claiming task _ (.done (.error e)) =>
    if e.isSuperseded then .untrack task.id fun _ => .idle else .record .abandoned (.releasing task.id)
  | claiming task start transition =>
    (transition.next s task.id (claim task start)).map (.claiming task start)
  | announcing task start => .notify task.userId (.ofTask task .processing start) (.drawing task start)
  | drawing task start =>
    .draw s.workMin.millis (max s.workMin.millis s.workMax.millis) fun ms => .working task start (.ofMillis ms)
  | working task start span => .sleep span (some (.releasing task.id)) (.finishing task start)
  | finishing task start => .readWallClock fun now => .completing task start (finishOf start now) (.start s)
  | completing task start finish (.done (.ok ())) => .record (.worked (finish.since start)) (.counting task finish)
  | completing task _ _ (.done (.error _)) => .record .abandoned (.releasing task.id)
  | completing task start finish transition =>
    (transition.next s task.id (completion task finish)).map (.completing task start finish)
  | counting task finish => .record .completed (.closing task finish)
  | closing task finish => .notify task.userId (.ofTask task .completed finish) (.releasing task.id)
  | releasing id => .untrack id fun _ => .idle
  | stopped => .stop

/-- Whether a worker has stopped. -/
def isStopped : Worker → Bool
  | stopped => true
  | _ => false

/-- The task that a worker has taken and the queue still tracks for it. -/
def held? : Worker → Option Int
  | idle => none
  | accepted task => some task.id
  | claiming task _ _ => some task.id
  | announcing task _ => some task.id
  | drawing task _ => some task.id
  | working task _ _ => some task.id
  | finishing task _ => some task.id
  | completing task _ _ _ => some task.id
  | counting task _ => some task.id
  | closing task _ => some task.id
  | releasing id => some id
  | stopped => none

end Worker

end Backlog.Dispatch
