import Backlog.Dispatch.Dispatcher
import Backlog.Dispatch.Worker
import Backlog.Simulation.Reply

/-!
# Jobs

Whatever runs beside others in a simulated run: the loops, single passes of the dispatcher, requests of callers, and
those who put tasks into the queue or take them out.  All of them are machines that act by steps.
-/

namespace Backlog.Simulation

open Dispatch Store

/-- Something that runs by steps. -/
inductive Job where
  | dispatcher (d : Dispatcher)
  | worker (w : Worker)
  | poll (p : Poll)
  /-- A pass that takes back the tasks as old as the settings say. -/
  | reclaim (p : Reclaim)
  /-- A request, with a limit or without one. -/
  | ask (request : Request) (limit : Option Duration)
  /-- A task on its way into the queue, which can be interrupted or not. -/
  | enqueue (interruptible : Bool) (task : Task) (stage : Enqueue)
  /-- Somebody who takes one task from the channel. -/
  | receive
  /-- Somebody who waits. -/
  | pause (span : Duration)
  | ended (reply : Reply)

namespace Job

/-- The next step of a job. -/
def next (s : Settings) : Job → Step Job
  | dispatcher d => (d.next s).map .dispatcher
  | worker w => (w.next s).map .worker
  | poll p => (p.next s).map .poll
  | reclaim p => (p.next s s.staleAfter).map .reclaim
  | ask r limit => .call r limit none fun result => .ended (.ofResult r result)
  | enqueue interruptible task stage => (stage.next interruptible task).map (.enqueue interruptible task)
  | receive => .receive none fun t => .ended (.task t)
  | pause span => .sleep span none (.ended .nothing)
  | ended _ => .stop

/-- What a job that has come to its end replies. -/
def reply : Job → Reply
  | poll (.done result) => .ofCount result
  | reclaim (.done result) => .ofCount result
  | enqueue _ _ (.done true) => .done
  | enqueue _ task (.done false) => .queueError ⟨task.id⟩
  | ended reply => reply
  | _ => .stopped

end Job

end Backlog.Simulation
