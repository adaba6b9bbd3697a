import Backlog.Store.Table

/-!
# Database files

What comes of opening a database at a place on disk, by what stands there.
-/

namespace Backlog.Store

/-- What stands at the place of a database file. -/
inductive Place where
  | free
  /-- A database whose table of tasks has no condition on its values. -/
  | loose
  /-- A file that is no database. -/
  | noDatabase
  /-- A file where the directory of the database should be. -/
  | underFile
  /-- A directory. -/
  | directory
deriving DecidableEq, Repr

/-- Opens the database at a place. -/
def Place.open? : Place → Except StoreError Table
  | free => .ok .fresh
  | loose => .ok (.empty Table.looseColumns)
  | noDatabase =>
    .error (.migration ("Failed to create _migrations table: " ++ Sql.engineReport "file is not a database"))
  | underFile => .error (.unavailable "Failed to create database directory: File exists")
  | directory =>
    .error (.unavailable ("Failed to create connection: " ++ Sql.engineReport "unable to open database file"))

end Backlog.Store
