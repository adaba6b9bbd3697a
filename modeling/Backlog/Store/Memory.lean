import Backlog.Store.Request

/-!
# The store in memory

Tasks kept as a list by identifier.  Identifiers are counted up from 1 and never given out twice.  Nothing bounds the
identifiers, the versions and the attempts: a claim always adds one to the attempts of its task, however many there are.

Key facts: an update is refused for the wrong version before it is refused for a move that is not allowed
(`StatusUpdate.refusal?`), and a refused update leaves the store as it is.
-/

namespace Backlog

/-- Why a task refuses an update, if it does. -/
def StatusUpdate.refusal? (u : StatusUpdate) (t : Task) : Option ConflictReason :=
  match u.expectedVersion with
  | some expected =>
    if t.version ≠ expected then some (.version expected t.version)
    else if t.status.canMoveTo u.status then none
    else some (.transition t.status u.status)
  | none => if t.status.canMoveTo u.status then none else some (.transition t.status u.status)

namespace Store

/-- A store in memory: the last identifier that was given out, and the tasks by identifier. -/
structure Memory where
  lastId : Int
  tasks : List Task
deriving DecidableEq, Repr

namespace Memory

/-- The store without tasks. -/
def empty : Memory := ⟨0, []⟩

instance : Inhabited Memory := ⟨empty⟩

/-- The task with an identifier. -/
def find? (m : Memory) (id : Int) : Option Task := m.tasks.find? fun t => t.id = id

/-- The store with something done to the task with an identifier. -/
def modify (m : Memory) (id : Int) (f : Task → Task) : Memory :=
  { m with tasks := m.tasks.map fun t => if t.id = id then f t else t }

/-- Adds a task that waits from now on. -/
def create (m : Memory) (now : Timestamp) (new : NewTask) : Task × Memory :=
  let t : Task := ⟨m.lastId + 1, new.text, .pending, now, none, none, new.userId, 0, 0⟩
  (t, ⟨m.lastId + 1, m.tasks ++ [t]⟩)

/-- The tasks with a status. -/
def withStatus (m : Memory) (status : Status) : List Task := m.tasks.filter fun t => t.status = status

/-- Replaces the text of a task. -/
def updateText (m : Memory) (id : Int) (text : String) : Except StoreError Unit × Memory :=
  match m.find? id with
  | none => (.error (.notFound id), m)
  | some _ => (.ok (), m.modify id fun t => { t with text })

/-- Changes the status of a task, or refuses to. -/
def updateStatus (m : Memory) (id : Int) (u : StatusUpdate) : Except StoreError Unit × Memory :=
  match m.find? id with
  | none => (.error (.notFound id), m)
  | some t =>
    match u.refusal? t with
    | some reason => (.error (.conflict t.id reason), m)
    | none => (.ok (), m.modify id u.applyTo)

/-- Removes a task, and says whether there was one. -/
def delete (m : Memory) (id : Int) : Bool × Memory :=
  ((m.find? id).isSome, { m with tasks := m.tasks.filter fun t => t.id ≠ id })

/-- Answers a request. -/
def perform (m : Memory) (now : Timestamp) : (r : Request) → Outcome r.Answer × Memory
  | .create new =>
    let (t, m) := m.create now new
    (.ok t, m)
  | .get id => (.ok (m.find? id), m)
  | .getFresh id => (.ok (m.find? id), m)
  | .list => (.ok m.tasks, m)
  | .listByStatus status => (.ok (m.withStatus status), m)
  | .updateText id text =>
    let (result, m) := m.updateText id text
    (.answered result, m)
  | .updateStatus id u =>
    let (result, m) := m.updateStatus id u
    (.answered result, m)
  | .delete id =>
    let (b, m) := m.delete id
    (.ok b, m)

end Memory

end Store

end Backlog
