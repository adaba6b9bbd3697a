import Backlog.Task

/-!
# Broadcasting notices

Every subscriber gets every notice that is sent after it has subscribed, in the order of sending.  Only so many of the
last notices are kept: a subscriber that waits too long is told once how many it has missed.

Key facts: the number of kept notices is a power of two (`Broadcast.empty`), and a subscriber gets what was sent since its
last visit (`Broadcast.pending`).
-/

namespace Backlog

/-- A notice and the owner of the task that it is about. -/
structure UserEvent where
  userId : String
  event : StatusEvent
deriving DecidableEq, Repr

/-- What a subscriber gets. -/
inductive Delivery where
  | event (e : UserEvent)
  /-- So many notices were sent that are no longer kept. -/
  | lagged (missed : Nat)
deriving DecidableEq, Repr

/-- The last notices, and for each subscriber the number of those sent before its next one. -/
structure Broadcast where
  capacity : Nat
  sent : Nat
  recent : List UserEvent
  subscribers : List (String × Nat)
deriving DecidableEq, Repr

namespace Broadcast

/-- The broadcast of which nothing was sent yet, which keeps at least so many notices. -/
def empty (capacity : Nat) : Broadcast := ⟨capacity.nextPowerOfTwo, 0, [], []⟩

/-- Sends a notice to all subscribers. -/
def send (b : Broadcast) (e : UserEvent) : Broadcast :=
  let recent := b.recent ++ [e]
  { b with sent := b.sent + 1, recent := recent.drop (recent.length - b.capacity) }

/-- Adds a subscriber, which gets what is sent from now on. -/
def subscribe (b : Broadcast) (name : String) : Broadcast :=
  { b with subscribers := (name, b.sent) :: b.subscribers.filter fun s => s.1 ≠ name }

/-- Removes a subscriber, and says whether there was one. -/
def unsubscribe (b : Broadcast) (name : String) : Bool × Broadcast :=
  ((b.subscribers.lookup name).isSome, { b with subscribers := b.subscribers.filter fun s => s.1 ≠ name })

/-- What a subscriber gets that has had so many of the notices. -/
def pending (b : Broadcast) (seen : Nat) : List Delivery :=
  let oldest := b.sent - b.recent.length
  if seen < oldest then .lagged (oldest - seen) :: b.recent.map .event
  else (b.recent.drop (seen - oldest)).map .event

/-- Gives a subscriber all that was sent since its last visit. -/
def collect (b : Broadcast) (name : String) : Option (List Delivery × Broadcast) :=
  (b.subscribers.lookup name).map fun seen =>
    (b.pending seen, { b with subscribers := (name, b.sent) :: b.subscribers.filter fun s => s.1 ≠ name })

end Broadcast

end Backlog
