import Backlog.Store.Link
import Backlog.Store.Shelf
import Backlog.Text.Quoted

/-!
# The front of a store

What callers of a store see: the link to its backend, with or without a shelf before it.  With a shelf, `get` and
`list` look there first, and every write is carried out by a helper of its own, which goes on when its caller has given
up: it throws the untrue copies away, makes the call, and throws them away once more.

Key facts: a read puts its answer on the shelf only under the epoch that it saw before its call (`Flight.reading`), and
a write throws copies away for the second time in the step in which its call ends (`Front.settle`).
-/

namespace Backlog.Store

/-- How far a write behind a shelf has come. -/
inductive WriteStage (r : Request) where
  | waiting
  /-- The untrue copies were thrown away, and the call is on its way. -/
  | calling (call : Call r)
  | ended (outcome : Outcome r.Answer)

/-- A write behind a shelf, and whether its caller still waits for it. -/
structure Write where
  request : Request
  stage : WriteStage request
  watched : Bool

/-- How far a caller has come with a request. -/
inductive Flight (r : Request) where
  /-- The call goes past the shelf. -/
  | passing (call : Call r)
  /-- The call was made in an epoch of the shelf. -/
  | reading (seen : Nat) (call : Call r)
  /-- The caller waits for the write with a number. -/
  | writing (number : Nat)
  | ended (outcome : Outcome r.Answer)

/-- A link with or without a shelf before it, and the writes under way behind the shelf, by number. -/
structure Front where
  link : Link
  shelf : Option Shelf
  writes : List (Nat × Write)
  nextWrite : Nat

namespace Write

/-- The moment at which a write is to be carried on, if it is known. -/
def due? (w : Write) : Option Instant :=
  match w.stage with
  | .calling call => call.due?
  | _ => none

/-- Whether a write has ended. -/
def isEnded (w : Write) : Bool :=
  match w.stage with
  | .ended _ => true
  | _ => false

/-- What the caller of a write learns: of one that has broken down, an error with the message. -/
def report {α : Type} : Outcome α → Outcome α
  | .crashed text =>
    .error (.query ("cached write task failed: task # panicked with message " ++ Text.quoted text))
  | o => o

/-- What came of a write that has ended, for the caller who made the request. -/
def outcome? (w : Write) (r : Request) : Option (Outcome r.Answer) :=
  if h : w.request = r then
    match w.stage with
    | .ended o => some (h ▸ report o)
    | _ => none
  else none

end Write

namespace Flight

variable {r : Request}

/-- What came of a request that has ended. -/
def outcome? : Flight r → Option (Outcome r.Answer)
  | ended o => some o
  | _ => none

/-- The moment at which a request is to be carried on, if it is its caller who does that. -/
def due? : Flight r → Option Instant
  | passing call => call.due?
  | reading _ call => call.due?
  | _ => none

/-- Whether the caller waits for a write behind the shelf. -/
def isWriting : Flight r → Bool
  | writing _ => true
  | _ => false

end Flight

namespace Front

/-- The front of a link, with an empty shelf or with none. -/
def ofLink (link : Link) (shelved : Bool) : Front := ⟨link, if shelved then some .empty else none, [], 0⟩

/-- Throws away the copies that a write may make untrue. -/
private def invalidate (f : Front) (r : Request) : Front :=
  { f with shelf := f.shelf.map fun s => s.invalidate r.id? }

/-- Puts the answer to a request on the shelf if it was asked for in the present epoch. -/
private def keep (f : Front) (now : Instant) (seen : Nat) (r : Request) : Outcome r.Answer → Front
  | .answered (.ok a) => { f with shelf := f.shelf.map fun s => s.keep now seen r a }
  | _ => f

/-- What a caller has who reads, once its call has come so far. -/
private def afterRead (f : Front) (now : Instant) (seen : Nat) {r : Request} (call : Call r) : Flight r × Front :=
  match call.outcome? with
  | none => (.reading seen call, f)
  | some o => (.ended o, f.keep now seen r o)

/-- What a caller has who goes past the shelf, once its call has come so far. -/
private def afterPass {r : Request} (call : Call r) : Flight r :=
  match call.outcome? with
  | none => .passing call
  | some o => .ended o

/-- Makes a request and carries it as far as its caller can at once. -/
def start (f : Front) (now : Instant) (wall : Timestamp) (r : Request) : Flight r × Front :=
  match f.shelf with
  | none =>
    let (call, link) := f.link.start now wall r
    (afterPass call, { f with link })
  | some shelf =>
    if r.isWrite then
      (.writing f.nextWrite,
        { f with writes := f.writes ++ [(f.nextWrite, ⟨r, .waiting, true⟩)], nextWrite := f.nextWrite + 1 })
    else
      match shelf.find? now r with
      | (some a, shelf) => (.ended (.ok a), { f with shelf := some shelf })
      | (none, shelf) =>
        let (call, link) := f.link.start now wall r
        { f with link, shelf := some shelf }.afterRead now shelf.epoch call

/-- Carries a request on if its moment has come; a write that has ended is handed to its caller. -/
def resume (f : Front) (now : Instant) (wall : Timestamp) {r : Request} (flight : Flight r) : Flight r × Front :=
  match flight with
  | .passing call =>
    let (call, link) := f.link.resume now wall call
    (afterPass call, { f with link })
  | .reading seen call =>
    let (call, link) := f.link.resume now wall call
    { f with link }.afterRead now seen call
  | .writing number =>
    match (f.writes.lookup number).bind fun w => w.outcome? r with
    | some o => (.ended o, { f with writes := f.writes.filter fun w => w.1 ≠ number })
    | none => (.writing number, f)
  | .ended o => (.ended o, f)

/-- The caller gives up; a write behind the shelf goes on. -/
def abandon (f : Front) {r : Request} : Flight r → Front
  | .writing number =>
    { f with writes := f.writes.map fun w => if w.1 = number then (w.1, { w.2 with watched := false }) else w }
  | _ => f

/-- What has become of a write once its call has come so far. -/
private def afterWrite (f : Front) {r : Request} (call : Call r) : WriteStage r × Front :=
  match call.outcome? with
  | none => (.calling call, f)
  | some (.crashed text) => (.ended (.crashed text), f)
  | some o => (.ended o, f.invalidate r)

/-- Carries a write as far as it comes. -/
def settle (f : Front) (now : Instant) (wall : Timestamp) {r : Request} : WriteStage r → WriteStage r × Front
  | .waiting =>
    let f := f.invalidate r
    let (call, link) := f.link.start now wall r
    { f with link }.afterWrite call
  | .calling call =>
    let (call, link) := f.link.resume now wall call
    { f with link }.afterWrite call
  | .ended o => (.ended o, f)

/-- Whether a write waits for something to be done now. -/
private def isReady (now : Instant) (w : Write) : Bool :=
  match w.stage with
  | .waiting => true
  | .calling call => call.due?.any fun due => due ≤ now
  | .ended _ => false

/-- Carries every write as far as it comes, in the order of their beginning; those that have ended and that nobody
waits for are forgotten. -/
def settleWrites (f : Front) (now : Instant) (wall : Timestamp) : Front :=
  let f := f.writes.foldl (fun f (number, w) =>
    if isReady now w then
      let (stage, f) := f.settle now wall w.stage
      { f with writes := f.writes.map fun e => if e.1 = number then (number, ⟨w.request, stage, e.2.watched⟩) else e }
    else f) f
  { f with writes := f.writes.filter fun e => e.2.watched || !e.2.isEnded }

/-- Whether a write waits for something to be done now. -/
def hasReadyWrite (f : Front) (now : Instant) : Bool := f.writes.any fun w => isReady now w.2

/-- The moments at which writes are to be carried on. -/
def dueWrites (f : Front) : List Instant := f.writes.filterMap fun w => w.2.due?

end Front

end Backlog.Store
