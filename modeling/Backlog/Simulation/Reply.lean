import Backlog.Broadcast
import Backlog.Cache.Tally
import Backlog.Dispatch.Tally
import Backlog.Queue
import Backlog.Sql.Cell
import Backlog.Store.Journal

/-!
# Replies

What the commands of a simulated run answer.
-/

namespace Backlog.Simulation

open Sql Store

/-- The answer to a command. -/
inductive Reply where
  | nothing
  /-- It was done. -/
  | done
  /-- It goes on in the background. -/
  | started
  /-- What was started in the background has not ended. -/
  | waiting
  /-- There is nothing of this name in the background. -/
  | gone
  /-- It was given up after too long a wait. -/
  | hung
  /-- It broke down. -/
  | crashed (text : String)
  /-- It could not be done without waiting. -/
  | wouldWait
  /-- A loop has ended. -/
  | stopped
  | flag (b : Bool)
  | count (n : Nat)
  | task (t : Task)
  | tasks (ts : List Task)
  | storeError (e : StoreError)
  | settingError (e : SettingError)
  | queueError (e : QueueError)
  /-- The workers that broke down and those that stopped. -/
  | workers (crashed stopped : Nat)
  | journal (entries : List JournalEntry)
  /-- Whether a row was inserted. -/
  | inserted (b : Bool)
  | rows (columns : List String) (rows : List (List Cell))
  /-- The counts and the sizes of the copies of tasks and of the listing. -/
  | shelf (tasks listing : Cache.Tally) (tasksSize listingSize : Nat)
  /-- The copies of tasks and of the listing that were dropped. -/
  | swept (tasks listing : Nat)
  /-- A task that was taken from the channel without waiting. -/
  | received (t : Task)
  | entries (es : List QueueEntry)
  | queue (size buffered capacity : Nat)
  /-- Whether the loop of the dispatcher shows that it runs. -/
  | running (b : Bool)
  | tally (t : Dispatch.Tally)
  | deliveries (ds : List Delivery)
  /-- How the loops have ended, and whether their token has fired. -/
  | shutdown (result : Except ShutdownError Unit) (cancelled : Bool)

namespace Reply

/-- The reply that stands for the answer of a store. -/
def ofAnswer : (r : Request) → r.Answer → Reply
  | .create _, t => .task t
  | .get _, t => t.elim .nothing .task
  | .getFresh _, t => t.elim .nothing .task
  | .list, ts => .tasks ts
  | .listByStatus _, ts => .tasks ts
  | .updateText _ _, () => .done
  | .updateStatus _ _, () => .done
  | .delete _, b => .flag b

/-- The reply that stands for what a store has answered. -/
def ofResult (r : Request) : Except StoreError r.Answer → Reply
  | .ok a => ofAnswer r a
  | .error e => .storeError e

/-- The reply of something that counts or fails. -/
def ofCount : Except StoreError Nat → Reply
  | .ok n => .count n
  | .error e => .storeError e

end Reply

end Backlog.Simulation
