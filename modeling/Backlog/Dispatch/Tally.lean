import Backlog.Duration

/-!
# Counting dispatch

What the dispatcher and the workers have done so far.  Working times are summed in whole microseconds, in a sum that
wraps around at 64 bits.  The counters rise by one at a time and are kept as numbers without an upper bound; so they say
what counters of 64 bits say as long as no event has been counted 2^64 times.

Key facts: every event raises its own counter by one (`Tally.record`), and the average is rounded down to a whole
nanosecond while the count has at most 32 bits and to a whole microsecond above (`Tally.average`).
-/

namespace Backlog.Dispatch

/-- Something that is counted. -/
inductive Count where
  /-- The dispatcher polls the store. -/
  | poll
  /-- A poll could not list the waiting tasks. -/
  | pollError
  /-- A task is handed to the workers. -/
  | enqueued
  /-- A worker claims a task. -/
  | claimed
  /-- A worker completes a task. -/
  | completed
  /-- A worker drops a task after a failed update. -/
  | abandoned
  /-- A task that was given up waits again. -/
  | reclaimed
  /-- A task has used up its attempts. -/
  | deadLettered
  /-- Work on a task took so long. -/
  | worked (elapsed : Duration)
deriving DecidableEq, Repr

/-- The counters. -/
structure Tally where
  polls : Nat
  pollErrors : Nat
  enqueued : Nat
  claimed : Nat
  completed : Nat
  abandoned : Nat
  reclaimed : Nat
  deadLettered : Nat
  /-- The working times that have been summed. -/
  workCount : Nat
  /-- The sum of the working times in microseconds, modulo the number of values that 64 bits have. -/
  workMicros : Nat
deriving DecidableEq, Repr

namespace Tally

/-- The counters before anything has happened. -/
def empty : Tally := ⟨0, 0, 0, 0, 0, 0, 0, 0, 0, 0⟩

instance : Inhabited Tally := ⟨empty⟩

/-- The working time that a sum takes, at most the largest count of 64 bits. -/
def cappedMicros (elapsed : Duration) : Nat := min elapsed.micros 18446744073709551615

/-- Counts something. -/
def record (t : Tally) : Count → Tally
  | .poll => { t with polls := t.polls + 1 }
  | .pollError => { t with pollErrors := t.pollErrors + 1 }
  | .enqueued => { t with enqueued := t.enqueued + 1 }
  | .claimed => { t with claimed := t.claimed + 1 }
  | .completed => { t with completed := t.completed + 1 }
  | .abandoned => { t with abandoned := t.abandoned + 1 }
  | .reclaimed => { t with reclaimed := t.reclaimed + 1 }
  | .deadLettered => { t with deadLettered := t.deadLettered + 1 }
  | .worked elapsed =>
    { t with workCount := t.workCount + 1, workMicros := (t.workMicros + cappedMicros elapsed) % 18446744073709551616 }

/-- The sum of the working times. -/
def workTotal (t : Tally) : Duration := .ofMicros t.workMicros

/-- The mean of so many spans with the given sum: zero of none, to the nanosecond while the count has at most 32 bits,
to the microsecond above. -/
def mean (count : Nat) (total : Duration) : Duration :=
  if count = 0 then .zero
  else if count < 4294967296 then ⟨total.nanos / count⟩
  else .ofMicros (total.micros / count)

/-- The mean working time. -/
def average (t : Tally) : Duration := mean t.workCount t.workTotal

end Tally

end Backlog.Dispatch
