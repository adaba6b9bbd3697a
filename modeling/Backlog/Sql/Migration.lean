import Backlog.Error
import Backlog.Sql.Database

/-!
# Bringing a database up to date

The changes that have been made to the schema over time, in order.  A database records the ones that it has; those
with a number above the largest recorded one are made and recorded one after the other.

Key facts: a change that fails keeps the effect of its statements before the failing one and is not recorded, and no
later change is tried (`migrateFrom`).
-/

namespace Backlog.Sql

/-- A change of the schema. -/
structure Migration where
  version : Int
  name : String
  statements : List Statement
deriving DecidableEq, Repr

/-- A column of texts. -/
private def textColumn (name : String) (notNull : Bool) (default : Cell) : Column :=
  ⟨name, .text, notNull, default, false⟩

/-- A column of numbers that are zero in the rows that say nothing. -/
private def counterColumn (name : String) : Column := ⟨name, .integer, true, .integer 0, false⟩

/-- The columns of the first table of tasks. -/
def firstColumns : List Column :=
  [⟨"id", .integer, false, .null, true⟩, textColumn "text" true .null, textColumn "status" true (.text "pending"),
   textColumn "user_id" true (.text ""), textColumn "created_at" true .null, textColumn "started_at" false .null,
   textColumn "ended_at" false .null]

/-- All changes in order. -/
def migrations : List Migration :=
  [⟨1, "tasks_table", [.createTasks firstColumns, .createIndex "idx_tasks_status" "status"]⟩,
   ⟨2, "optimistic_dispatch",
    [.addColumn (counterColumn "version"), .addColumn (counterColumn "attempts"),
     .createIndex "idx_tasks_user" "user_id"]⟩]

/-- A recorded change put in its place by number, unless its number is taken. -/
def recordChange (version : Int) (name : String) : List (Int × String) → List (Int × String)
  | [] => [(version, name)]
  | c :: r =>
    if c.1 = version then c :: r
    else if version < c.1 then (version, name) :: c :: r
    else c :: recordChange version name r

/-- The largest recorded number, zero if nothing is recorded. -/
def currentVersion : List (Int × String) → Int
  | [] => 0
  | c :: r => r.foldl (fun n c => max n c.1) c.1

/-- Makes and records those of the changes whose number lies above the current one. -/
def migrateFrom (current : Int) : Database → List Migration → Database × Option StoreError
  | db, [] => (db, none)
  | db, m :: rest =>
    if m.version ≤ current then migrateFrom current db rest
    else
      match runAll db m.statements with
      | (db, some e) => (db, some (.migration (s!"Migration V{m.version} ({m.name}) failed: " ++ e.message)))
      | (db, none) =>
        let changes :=
          match db.record with
          | .kept changes => changes
          | _ => []
        migrateFrom current { db with record := .kept (recordChange m.version m.name changes) } rest

/-- Brings a database up to date: the database afterwards, and what went wrong if something did. -/
def migrate (db : Database) : Database × Option StoreError :=
  match db.record with
  | .absent => migrateFrom 0 { db with record := .kept [] } migrations
  | .kept changes => migrateFrom (currentVersion changes) db migrations
  | .foreign =>
    (db, some (.migration ("Failed to query migration version: " ++ (StatementError.noColumn "version").message)))

end Backlog.Sql
