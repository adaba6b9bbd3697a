import Backlog.Sql.Cell

/-!
# Databases

A database of tasks as the statements that build it see it: the table of tasks with whatever columns and rows it has,
the indexes, and the record of the changes that have been made to it.

Key facts: a statement changes the database or fails and leaves it as it is (`Statement.run`); in a sequence of
statements those before the first failure have their effect (`runAll`).
-/

namespace Backlog.Sql

/-- A column of a table.  A row that does not say otherwise has the default in it. -/
structure Column where
  name : String
  affinity : Affinity
  notNull : Bool
  default : Cell
  /-- Whether the column is the key of the table. -/
  isKey : Bool
deriving DecidableEq, Repr

/-- A table of tasks, with the values of each row in the order of the columns. -/
structure TaskTable where
  columns : List Column
  rows : List (List Cell)
deriving DecidableEq, Repr, Inhabited

/-- The record of the changes that have been made to a database. -/
inductive Record where
  | absent
  /-- A table of another shape stands in its place. -/
  | foreign
  /-- The number and the name of each change, by number. -/
  | kept (changes : List (Int × String))
deriving DecidableEq, Repr

/-- A database of tasks. -/
structure Database where
  record : Record
  tasks : Option TaskTable
  indexes : List String
deriving DecidableEq, Repr

/-- The database in which nothing has been made. -/
def Database.empty : Database := ⟨.absent, none, []⟩

/-- Names are compared without regard to the case of ASCII letters. -/
def sameName (a b : String) : Bool := a.toList.map Char.toLower == b.toList.map Char.toLower

/-- Whether a table has a column of this name. -/
def TaskTable.hasColumn (t : TaskTable) (name : String) : Bool := t.columns.any fun c => sameName c.name name

/-- Whether a database has an index of this name. -/
def Database.hasIndex (db : Database) (name : String) : Bool := db.indexes.any fun i => sameName i name

/-- The values of a row in the columns of these names, if the table has all of them. -/
def TaskTable.select? (t : TaskTable) (names : List String) (row : List Cell) : Option (List Cell) :=
  names.mapM fun name => (t.columns.findIdx? fun c => sameName c.name name).map fun i => row.getD i .null

/-- The table with another row, which has the given values and the defaults in the other columns. -/
def TaskTable.insertRow (t : TaskTable) (values : List (String × Cell)) : TaskTable :=
  let cell (c : Column) : Cell :=
    match values.find? fun v => sameName v.1 c.name with
    | some (_, v) => v.keptAs c.affinity
    | none => c.default
  { t with rows := t.rows ++ [t.columns.map cell] }

/-- A statement that builds a database. -/
inductive Statement where
  /-- Creates the table of tasks unless there is one. -/
  | createTasks (columns : List Column)
  /-- Creates an index on a column of the tasks unless there is one of this name. -/
  | createIndex (name column : String)
  /-- Adds a column to the tasks. -/
  | addColumn (column : Column)
deriving DecidableEq, Repr

/-- Why a statement failed. -/
inductive StatementError where
  | noTable (name : String)
  | noColumn (name : String)
  | duplicateColumn (name : String)
deriving DecidableEq, Repr

/-- The database engine's report of a failed statement. -/
def engineReport (text : String) : String := "SQLite failure: `" ++ text ++ "`"

/-- The report of a failed statement. -/
def StatementError.message : StatementError → String
  | noTable name => engineReport ("no such table: " ++ name)
  | noColumn name => engineReport ("no such column: " ++ name)
  | duplicateColumn name => engineReport ("duplicate column name: " ++ name)

/-- Runs a statement. -/
def Statement.run (db : Database) : Statement → Except StatementError Database
  | createTasks columns =>
    match db.tasks with
    | some _ => .ok db
    | none => .ok { db with tasks := some ⟨columns, []⟩ }
  | createIndex name column =>
    if db.hasIndex name then .ok db
    else
      match db.tasks with
      | none => .error (.noTable "main.tasks")
      | some t =>
        if t.hasColumn column then .ok { db with indexes := db.indexes ++ [name] } else .error (.noColumn column)
  | addColumn column =>
    match db.tasks with
    | none => .error (.noTable "tasks")
    | some t =>
      if t.hasColumn column.name then .error (.duplicateColumn column.name)
      else
        .ok { db with tasks := some ⟨t.columns ++ [column], t.rows.map fun row => row ++ [column.default]⟩ }

/-- Runs statements up to the first one that fails. -/
def runAll : Database → List Statement → Database × Option StatementError
  | db, [] => (db, none)
  | db, s :: rest =>
    match s.run db with
    | .ok db => runAll db rest
    | .error e => (db, some e)

end Backlog.Sql
