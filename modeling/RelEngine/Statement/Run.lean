import RelEngine.Statement.CreateTable
import RelEngine.Statement.Delete
import RelEngine.Statement.DropTable
import RelEngine.Statement.Update

/-!
Running any statement on a database.
-/
namespace RelEngine

def Statement.run : Statement → Change Unit
  | .createTable s => s.run
  | .dropTable s => s.run
  | .insert s => s.run
  | .update s => s.run
  | .delete s => s.run

/-- The outcome of a statement, and the database after it. -/
def Database.execute (db : Database) (s : Statement) : Checked Unit × Database := s.run.runFrom db

/-- The rows of a table in the order of their ids. The fields are read under a qualifier, so a dot in
a column's name does not split it; a name that cannot be qualified has no value. -/
def Database.listRows (db : Database) (table : String) : Checked (List (List (Checked Value))) := do
  let view ← db.view table (some "q")
  return (view.rows db.stores).ids.map fun id =>
    view.schema.names.map fun name => view.read db.stores (some id) ("q." ++ name)

end RelEngine
