import Backlog.Cache.Timed
import Backlog.Store.Request

/-!
# The shelf

Copies of single tasks and of the whole listing, kept at hand for a while.  Before and after every write the copies
that it may make untrue are thrown away, and the epoch is raised; a copy that was read in an earlier epoch is not put
on the shelf.

Key facts: only `get` and `list` are answered from the shelf (`Shelf.find?`), and a copy is put there only if no write
has begun or ended since its reader has looked (`Shelf.keep`).
-/

namespace Backlog.Store

open Cache

/-- Copies of tasks and of the listing, and the number of times that copies were thrown away. -/
structure Shelf where
  tasks : Timed Int Task
  listing : Timed Unit (List Task)
  epoch : Nat
deriving Repr

namespace Shelf

/-- The shelf without copies. -/
def empty : Shelf := ⟨.empty, .empty, 0⟩

/-- The time for which the copy of a task is kept. -/
def taskLife : Duration := .ofSecs 300

/-- The time for which the copy of the listing is kept. -/
def listingLife : Duration := .ofSecs 60

/-- Looks for a copy that answers a request. -/
def find? (s : Shelf) (now : Instant) : (r : Request) → Option r.Answer × Shelf
  | .get id =>
    let (task, tasks) := s.tasks.get id now
    (task.map some, { s with tasks })
  | .list =>
    let (list, listing) := s.listing.get () now
    (list, { s with listing })
  | .create _ => (none, s)
  | .getFresh _ => (none, s)
  | .listByStatus _ => (none, s)
  | .updateText _ _ => (none, s)
  | .updateStatus _ _ => (none, s)
  | .delete _ => (none, s)

/-- Keeps a copy of the answer to a request that looked at the shelf in an epoch. -/
def keep (s : Shelf) (now : Instant) (seen : Nat) : (r : Request) → r.Answer → Shelf
  | .get id, some task => if s.epoch = seen then { s with tasks := s.tasks.set id task taskLife now } else s
  | .list, tasks => if s.epoch = seen then { s with listing := s.listing.set () tasks listingLife now } else s
  | _, _ => s

/-- Throws away the copies that a write to a task may make untrue, or a write without a task. -/
def invalidate (s : Shelf) (id? : Option Int) : Shelf :=
  { tasks := match id? with
      | some id => (s.tasks.delete id).2
      | none => s.tasks
    listing := (s.listing.delete ()).2
    epoch := s.epoch + 1 }

end Shelf

end Backlog.Store
