import Backlog.Cache.Timed

/-!
# Sweepers

A sweeper drops the expired entries of a cache at regular moments.  It does not sweep when it starts, and with an empty
period it does not run at all.

Key facts: nobody sees a cache between two moments of the clock, so of several sweeps that have become due only the
last one matters (`Sweeper.lastDue?`).
-/

namespace Backlog.Cache

/-- A running sweeper: the time between its sweeps and the moment of the next one. -/
structure Sweeper where
  period : Duration
  due : Instant
deriving DecidableEq, Repr, Inhabited

namespace Sweeper

/-- A sweeper that starts now, unless its period is empty. -/
def start? (period : Duration) (now : Instant) : Option Sweeper :=
  if period.isZero then none else some ⟨period, now + period⟩

/-- The moment of the last sweep that is due by now, if one is. -/
def lastDue? (s : Sweeper) (now : Instant) : Option Instant :=
  if now < s.due then none
  else some ⟨s.due.nanos + (now.nanos - s.due.nanos) / s.period.nanos * s.period.nanos⟩

/-- The sweeper when the clock has come to this moment, and the moment of the sweep that it has made by then. -/
def catchUp (s : Sweeper) (now : Instant) : Option Instant × Sweeper :=
  match s.lastDue? now with
  | none => (none, s)
  | some last => (some last, { s with due := last + s.period })

end Sweeper

namespace Timed

variable {κ α : Type} [DecidableEq κ]

/-- The cache after the sweeps that a sweeper makes up to this moment. -/
def sweptBy (c : Timed κ α) (last : Option Instant) : Timed κ α :=
  match last with
  | none => c
  | some at_ => (c.sweep at_).2

end Timed

end Backlog.Cache
