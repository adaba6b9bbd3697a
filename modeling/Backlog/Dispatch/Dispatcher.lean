import Backlog.Dispatch.Poll
import Backlog.Dispatch.Reclaim

/-!
# The dispatcher

The dispatcher ticks at once and then after every poll interval, until its token fires.  In each tick it reclaims the
tasks that were given up and then polls for waiting ones.  With `reclaimOnStart` the first tick reclaims every task in
processing, however young.

Key facts: a tick that comes on time sets the next one an interval after the moment it was due, and one that is late
by more than five milliseconds an interval after the moment it came (`nextDue`).
-/

namespace Backlog.Dispatch

/-- Where the loop of the dispatcher stands. -/
inductive Dispatcher where
  /-- It shows that it runs. -/
  | starting
  /-- It reads the clock for its first tick. -/
  | timing
  /-- It waits for a tick, the first one or another. -/
  | waiting (first : Bool) (due : Instant)
  /-- It reclaims tasks with a threshold; the next tick is due at the given moment. -/
  | reclaiming (due : Instant) (threshold : Duration) (pass : Reclaim)
  /-- It polls for tasks. -/
  | polling (due : Instant) (poll : Poll)
  /-- It shows that it runs no longer. -/
  | stopping
  /-- It has stopped. -/
  | stopped

namespace Dispatcher

/-- The time between two ticks: the poll interval, or the standard one in place of none at all. -/
def period (s : Settings) : Duration :=
  if s.pollInterval.isZero then Settings.standard.pollInterval else s.pollInterval

/-- The lateness up to which a tick counts as on time. -/
def tolerance : Duration := .ofMillis 5

/-- The moment of the tick after one that was due and came at these moments. -/
def nextDue (s : Settings) (due came : Instant) : Instant :=
  if due + tolerance < came then came + period s else due + period s

/-- The age from which a tick takes tasks back. -/
def threshold (s : Settings) (first : Bool) : Duration := if first && s.reclaimOnStart then .zero else s.staleAfter

/-- What follows a step of the reclaiming. -/
def afterReclaim (due : Instant) (threshold : Duration) : Reclaim → Dispatcher
  | .done _ => .polling due .starting
  | pass => .reclaiming due threshold pass

/-- What follows a step of the polling. -/
def afterPoll (due : Instant) : Poll → Dispatcher
  | .done _ => .waiting false due
  | poll => .polling due poll

/-- The next step of the loop. -/
def next (s : Settings) : Dispatcher → Step Dispatcher
  | starting => .showRunning true .timing
  | timing => .readClock (.waiting true)
  | waiting first due =>
    .sleepUntil due (some .stopping) fun came => .reclaiming (nextDue s due came) (threshold s first) .listing
  | reclaiming due threshold pass => (pass.next s threshold).map (afterReclaim due threshold)
  | polling due poll => (poll.next s).map (afterPoll due)
  | stopping => .showRunning false .stopped
  | stopped => .stop

end Dispatcher

end Backlog.Dispatch
