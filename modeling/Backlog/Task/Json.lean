import Backlog.Json.Record
import Backlog.Task

/-!
# Tasks as JSON

The records in which tasks, requests to create one and notices are exchanged, and the reading and writing of each.
Every written value is read back as it was.
-/

namespace Backlog

open Json

/-- The range of a 64-bit number with a sign. -/
def Json.signed64 : Kind := .integer (-9223372036854775808) 9223372036854775807

/-- The range of a 32-bit number without a sign. -/
def Json.unsigned32 : Kind := .integer 0 4294967295

/-- An optional time as a value of a field. -/
def Json.Value.ofTime? : Option Timestamp → Value
  | some t => .time t
  | none => .unset

/-- The time that a value of a field holds, if it is one or stands for none. -/
def Json.Value.toTime? : Value → Option (Option Timestamp)
  | .time t => some (some t)
  | .unset => some none
  | _ => none

namespace Task

/-- The fields of a task. -/
def fields : List Field :=
  [⟨"id", signed64, none⟩, ⟨"text", .text, none⟩, ⟨"status", .status, none⟩, ⟨"created_at", .time, none⟩,
   ⟨"started_at", .optionalTime, some .unset⟩, ⟨"ended_at", .optionalTime, some .unset⟩, ⟨"user_id", .text, none⟩,
   ⟨"version", signed64, some (.integer 0)⟩, ⟨"attempts", unsigned32, some (.integer 0)⟩]

/-- The values of a task's fields. -/
def values (t : Task) : List Value :=
  [.integer t.id, .text t.text, .status t.status, .time t.createdAt, .ofTime? t.startedAt, .ofTime? t.endedAt,
   .text t.userId, .integer t.version, .integer t.attempts]

/-- The task whose fields have these values. -/
def ofValues : List Value → Except Fault Task
  | [.integer id, .text text, .status status, .time createdAt, started, ended, .text userId, .integer version,
      .integer attempts] =>
    match started.toTime?, ended.toTime? with
    | some startedAt, some endedAt =>
      .ok ⟨id, text, status, createdAt, startedAt, endedAt, userId, version, attempts.toNat⟩
    | _, _ => .error .mistyped
  | _ => .error .mistyped

/-- A task as JSON. -/
def encode (t : Task) : List Char := writeRecord fields t.values

/-- A task as a JSON text. -/
def toJson (t : Task) : String := String.ofList t.encode

/-- The task that a JSON text writes. -/
def ofJson? (text : String) : Except Fault Task := do ofValues (← readDocument (readRecord fields) text)

/-- A list of tasks as a JSON text. -/
def listToJson (ts : List Task) : String := String.ofList (encodeArray (ts.map encode))

/-- The list of tasks that a JSON text writes. -/
def listOfJson? (text : String) : Except Fault (List Task) := do
  (← readDocument (readRecords fields) text).mapM ofValues

end Task

namespace NewTask

/-- The fields of a request to create a task. -/
def fields : List Field := [⟨"text", .text, none⟩, ⟨"user_id", .text, none⟩]

/-- The values of a request's fields. -/
def values (t : NewTask) : List Value := [.text t.text, .text t.userId]

/-- The request whose fields have these values. -/
def ofValues : List Value → Except Fault NewTask
  | [.text text, .text userId] => .ok ⟨text, userId⟩
  | _ => .error .mistyped

/-- A request as a JSON text. -/
def toJson (t : NewTask) : String := String.ofList (writeRecord fields t.values)

/-- The request that a JSON text writes. -/
def ofJson? (text : String) : Except Fault NewTask := do ofValues (← readDocument (readRecord fields) text)

end NewTask

namespace StatusEvent

/-- The fields of a notice. -/
def fields : List Field :=
  [⟨"type", .text, none⟩, ⟨"task_id", signed64, none⟩, ⟨"text", .text, none⟩, ⟨"status", .status, none⟩,
   ⟨"timestamp", .time, none⟩]

/-- The values of a notice's fields. -/
def values (e : StatusEvent) : List Value :=
  [.text e.kind, .integer e.taskId, .text e.text, .status e.status, .time e.timestamp]

/-- The notice whose fields have these values. -/
def ofValues : List Value → Except Fault StatusEvent
  | [.text kind, .integer taskId, .text text, .status status, .time timestamp] =>
    .ok ⟨kind, taskId, text, status, timestamp⟩
  | _ => .error .mistyped

/-- A notice as a JSON text. -/
def toJson (e : StatusEvent) : String := String.ofList (writeRecord fields e.values)

/-- The notice that a JSON text writes. -/
def ofJson? (text : String) : Except Fault StatusEvent := do ofValues (← readDocument (readRecord fields) text)

end StatusEvent

namespace Status

/-- A status as a JSON text. -/
def toJson (a : Status) : String := String.ofList (encodeString a.name.toList)

/-- The status that a JSON text writes. -/
def ofJson? (text : String) : Except Fault Status := readDocument readStatus text

end Status

end Backlog
