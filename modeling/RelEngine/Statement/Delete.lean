import RelEngine.Statement.Constraints
import RelEngine.Statement.Filter

/-!
DELETE. Each matching row is checked right before it goes, so a row that is still referred to stops
the statement and the rows before it stay gone.
-/
namespace RelEngine

def Database.checkRemoval (db : Database) (view : TableView) (references : List Reference)
    (id : RowId) : Checked Unit :=
  references.forM fun r => do
    db.checkChildren r (← view.read db.stores (some id) r.parentField) .delete

def Delete.run (s : Delete) : Change Unit := do
  let db ← get
  let view ← db.view s.table none
  let filter ← s.filter.mapM (·.bind view.fieldCheck)
  let references := db.references.filter (·.parentTable == s.table)
  (view.rows db.stores).ids.forM fun id => do
    let db ← get
    if ← view.accepts db.stores filter id then
      db.checkRemoval view references id
      set { db with stores := view.remove db.stores id }

end RelEngine
