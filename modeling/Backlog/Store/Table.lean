import Backlog.Sql.Migration
import Backlog.Store.Request
import Backlog.Timestamp.Reader
import Backlog.Timestamp.Text

/-!
# The store in a database

Tasks kept as rows of cells.  A row is turned into a task when it is read, and an update of the status is one
conditional statement over the cells: whether it may be made is decided by the stored values themselves.  Only when no
row was changed is the task read to find out why.

Key facts:
* identifiers are given out in ascending order and never twice, whatever is deleted (`Table.nextId?`);
* a row is read column by column, and the first cell that cannot be read decides (`Row.toTask`);
* a text is read up to its first zero character, and a time that cannot be read is the earliest one.
-/

namespace Backlog.Store

open Sql

/-- A row of the table of tasks. -/
structure Row where
  id : Int
  text : Cell
  status : Cell
  userId : Cell
  createdAt : Cell
  startedAt : Cell
  endedAt : Cell
  version : Cell
  attempts : Cell
deriving DecidableEq, Repr

namespace Row

/-- The values of a row, by column. -/
def cells (r : Row) : List (String × Cell) :=
  [("id", .integer r.id), ("text", r.text), ("status", r.status), ("user_id", r.userId), ("created_at", r.createdAt),
   ("started_at", r.startedAt), ("ended_at", r.endedAt), ("version", r.version), ("attempts", r.attempts)]

/-- A text as it is read: up to its first zero character. -/
def readable (s : String) : String := String.ofList (s.toList.takeWhile fun c => c ≠ '\x00')

/-- The crash of a reader that meets a value of a kind that its column does not hold. -/
def wrongKind {α : Type} : Outcome α := .crashed "internal error: entered unreachable code: invalid value type"

/-- Reads a text that must be there. -/
def requiredText (column : String) : Cell → Outcome String
  | .text s => .ok (readable s)
  | .null => .error (.query ("task." ++ column ++ ": Null value"))
  | _ => wrongKind

/-- Reads a text that may be missing. -/
def optionalText : Cell → Outcome (Option String)
  | .text s => .ok (some (readable s))
  | .null => .ok none
  | _ => wrongKind

/-- Reads a number that is zero where it is missing. -/
def counter : Cell → Outcome Int
  | .integer n => .ok n
  | .null => .ok 0
  | _ => wrongKind

/-- Reads the status of the task with an identifier. -/
def readStatus (id : Int) (s : String) : Outcome Status :=
  match Status.ofName? s with
  | some a => .ok a
  | none => .error (.serialization (s!"task {id}: " ++ Status.unknown s))

/-- The time that a text stands for; an empty text stands for none. -/
def timeOfText? : Option String → Option Timestamp
  | none => none
  | some s => if s.isEmpty then none else some (.ofStored s)

/-- The largest number of attempts that a task can have. -/
def mostAttempts : Nat := 4294967295

/-- The attempts that a stored number stands for: a number that is none counts as the largest. -/
def attemptsOf (n : Int) : Nat := if 0 ≤ n ∧ n ≤ mostAttempts then n.toNat else mostAttempts

/-- The task that a row stands for. -/
def toTask (r : Row) : Outcome Task := do
  let text ← requiredText "text" r.text
  let status ← readStatus r.id (← requiredText "status" r.status)
  let userId ← optionalText r.userId
  let createdAt ← requiredText "created_at" r.createdAt
  let startedAt ← optionalText r.startedAt
  let endedAt ← optionalText r.endedAt
  let version ← counter r.version
  let attempts ← counter r.attempts
  return { id := r.id, text, status, createdAt := .ofStored createdAt, startedAt := timeOfText? startedAt,
           endedAt := timeOfText? endedAt, userId := userId.getD "", version, attempts := attemptsOf attempts }

/-- The tasks that rows stand for, unless one of the rows cannot be read. -/
def toTasks : List Row → Outcome (List Task)
  | [] => .ok []
  | r :: rest => do return (← r.toTask) :: (← toTasks rest)

/-- Whether an update may be made to a row: its status is one from which the task may move, and it has the expected
version if one is expected. -/
def admits (r : Row) (u : StatusUpdate) : Bool :=
  (u.status.predecessors.any fun s => r.status = .text s.name)
    && (match u.expectedVersion with
      | none => true
      | some v => r.version = .integer v)

/-- The row after an update of its status. -/
def updated (r : Row) (u : StatusUpdate) : Row :=
  { r with
    status := .text u.status.name
    startedAt := ((u.startedAt.map fun t => Cell.text t.storedText).getD .null).orElse r.startedAt
    endedAt := ((u.endedAt.map fun t => Cell.text t.storedText).getD .null).orElse r.endedAt
    attempts := (r.attempts.plus (if u.status = .processing then 1 else 0)).keptAs .integer
    version := (r.version.plus 1).keptAs .integer }

end Row

/-- A table of tasks: its columns, its rows by identifier, and the largest identifier ever used. -/
structure Table where
  columns : List Column
  rows : List Row
  lastId : Int
deriving DecidableEq, Repr

namespace Table

/-- The table without rows and with these columns. -/
def empty (columns : List Column) : Table := ⟨columns, [], 0⟩

/-- The columns of a database that is up to date. -/
def currentColumns : List Column :=
  match (migrate .empty).1.tasks with
  | some t => t.columns
  | none => []

/-- The table without rows in a database that is up to date. -/
def fresh : Table := empty currentColumns

/-- The columns of a database that was made without any condition on its values. -/
def looseColumns : List Column :=
  currentColumns.map fun c => { c with notNull := false, default := .null }

/-- The value that a column has where a row does not say otherwise. -/
def default (t : Table) (column : String) : Cell :=
  ((t.columns.find? fun c => c.name = column).map fun c => c.default).getD .null

/-- The identifier of the next row, if there is one left. -/
def nextId? (t : Table) : Option Int := if t.lastId < mostInteger then some (t.lastId + 1) else none

/-- Rows by identifier with another one in its place. -/
def insertRow (row : Row) : List Row → List Row
  | [] => [row]
  | r :: rest => if row.id < r.id then row :: r :: rest else r :: insertRow row rest

/-- The table with another row. -/
def add (t : Table) (row : Row) : Table :=
  { t with rows := insertRow row t.rows, lastId := max t.lastId row.id }

/-- The row with an identifier. -/
def find? (t : Table) (id : Int) : Option Row := t.rows.find? fun r => r.id = id

/-- The table with something done to the rows that satisfy a condition. -/
def modifyWhere (t : Table) (p : Row → Bool) (f : Row → Row) : Table :=
  { t with rows := t.rows.map fun r => if p r then f r else r }

/-- The task with an identifier. -/
def get (t : Table) (id : Int) : Outcome (Option Task) :=
  match t.find? id with
  | none => .ok none
  | some r => r.toTask.mapOk some

/-- Adds a task that waits from now on. -/
def create (t : Table) (now : Timestamp) (new : NewTask) : Outcome Task × Table :=
  match t.nextId? with
  | none => (.error (.query ("create row: " ++ engineReport "database or disk is full")), t)
  | some id =>
    let row : Row :=
      ⟨id, .text new.text, .text Status.pending.name, .text new.userId, .text now.storedText, t.default "started_at",
        t.default "ended_at", t.default "version", t.default "attempts"⟩
    (row.toTask, t.add row)

/-- The tasks with a status. -/
def withStatus (t : Table) (status : Status) : Outcome (List Task) :=
  Row.toTasks (t.rows.filter fun r => r.status = .text status.name)

/-- Replaces the text of a task. -/
def updateText (t : Table) (id : Int) (text : String) : Outcome Unit × Table :=
  match t.find? id with
  | none => (.error (.notFound id), t)
  | some _ => (.ok (), t.modifyWhere (fun r => r.id = id) fun r => { r with text := .text text })

/-- Why an update changed no row. -/
def missedUpdate (t : Table) (id : Int) (u : StatusUpdate) : Outcome Unit := do
  match ← t.get id with
  | none => .error (.notFound id)
  | some task =>
    match u.expectedVersion with
    | some expected =>
      if expected ≠ task.version then .error (.conflict id (.version expected task.version))
      else .error (.conflict id (.transition task.status u.status))
    | none => .error (.conflict id (.transition task.status u.status))

/-- Changes the status of a task, or refuses to. -/
def updateStatus (t : Table) (id : Int) (u : StatusUpdate) : Outcome Unit × Table :=
  let hit (r : Row) : Bool := r.id = id && r.admits u
  if t.rows.any hit then (.ok (), t.modifyWhere hit fun r => r.updated u) else (t.missedUpdate id u, t)

/-- Removes a task, and says whether there was one. -/
def delete (t : Table) (id : Int) : Bool × Table :=
  ((t.find? id).isSome, { t with rows := t.rows.filter fun r => r.id ≠ id })

/-- Answers a request. -/
def perform (t : Table) (now : Timestamp) : (r : Request) → Outcome r.Answer × Table
  | .create new => t.create now new
  | .get id => (t.get id, t)
  | .getFresh id => (t.get id, t)
  | .list => (Row.toTasks t.rows, t)
  | .listByStatus status => (t.withStatus status, t)
  | .updateText id text => t.updateText id text
  | .updateStatus id u => t.updateStatus id u
  | .delete id =>
    let (b, t) := t.delete id
    (.ok b, t)

/-! ### Rows from elsewhere -/

/-- The identifier that a row from elsewhere asks for, or the next one if it asks for none. -/
def requestedId? (t : Table) : Cell → Option Int
  | .null => t.nextId?
  | c =>
    match c.keptAs .integer with
    | .integer n => if (t.find? n).isSome then none else some n
    | _ => none

/-- Adds a row with the given values, and the defaults in the other columns, unless a column does not exist or a
condition on the values is broken. -/
def insert? (t : Table) (values : List (String × Cell)) : Option Table := do
  let named (v : String × Cell) : Bool := t.columns.any fun c => c.name = v.1
  if !values.all named then failure
  let cell (column : String) : Option Cell := do
    let c ← t.columns.find? fun c => c.name = column
    let v := ((values.lookup column).map fun v => v.keptAs c.affinity).getD c.default
    if c.notNull ∧ v = .null then failure else return v
  let id ← t.requestedId? ((values.lookup "id").getD .null)
  return t.add
    ⟨id, ← cell "text", ← cell "status", ← cell "user_id", ← cell "created_at", ← cell "started_at",
      ← cell "ended_at", ← cell "version", ← cell "attempts"⟩

end Table

end Backlog.Store
