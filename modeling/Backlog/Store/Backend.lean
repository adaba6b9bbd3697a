import Backlog.Store.Memory
import Backlog.Store.Table

/-!
# Backends

A store of either kind, behind one way to ask it.
-/

namespace Backlog.Store

/-- A store of tasks. -/
inductive Backend where
  | memory (m : Memory)
  | table (t : Table)
deriving Repr

/-- Answers a request. -/
def Backend.perform (b : Backend) (now : Timestamp) (r : Request) : Outcome r.Answer × Backend :=
  match b with
  | .memory m =>
    let (o, m) := m.perform now r
    (o, .memory m)
  | .table t =>
    let (o, t) := t.perform now r
    (o, .table t)

end Backlog.Store
