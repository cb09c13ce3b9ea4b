import RelEngine.Statement.Filter
import RelEngine.Statement.Insert

/-!
UPDATE. The new values of all matching rows are computed and checked on the database as it was, and
only then is the first row written. A field whose new value is identical to the old one is not
checked against the constraints.
-/
namespace RelEngine

structure Assignment where
  column : Column
  value : Expr

/-- The columns of the assigned fields, of which none may occur twice. -/
def Schema.assigned (schema : Schema) (fields : List String) : Checked (List Column) :=
  Schema.targets.go schema [] fields

/-- The new value for one field of a row, given how the row is read. `earlier` holds the values that the same
statement gave the field in other rows. -/
def Assignment.newValueOn (a : Assignment) (db : Database) (table : String)
    (row : String → Checked Value) (earlier : List Value) : Checked Value := do
  let value ← a.column.normalize (← a.value.eval db.stores row)
  let current ← row a.column.name
  if !Value.identical value current then
    db.checkUnique table a.column value
    db.checkParents table a.column.name value
    (db.references.filter (·.hasParent table a.column.name)).forM fun r =>
      db.checkChildren r current .update
  if a.column.unique && !value.isNull && earlier.any (Value.identical · value) then
    throw (.uniqueViolation table a.column.name)
  return value

def Assignment.newValue (a : Assignment) (db : Database) (view : TableView) (table : String)
    (id : RowId) (earlier : List Value) : Checked Value :=
  a.newValueOn db table (view.read db.stores (some id)) earlier

def Database.newRowOn (db : Database) (table : String) (row : String → Checked Value)
    (assignments : List Assignment) (earlier : List (List Value)) : Checked (List Value) :=
  assignments.zipIdx.mapM fun (a, i) =>
    a.newValueOn db table row (earlier.map (·.getD i none))

def Database.newRow (db : Database) (view : TableView) (table : String)
    (assignments : List Assignment) (earlier : List (List Value)) (id : RowId) :
    Checked (List Value) :=
  db.newRowOn table (view.read db.stores (some id)) assignments earlier

def Database.newRows (db : Database) (view : TableView) (table : String) (filter : Option Expr)
    (assignments : List Assignment) : Checked (List (List Value)) :=
  (view.rows db.stores).ids.foldlM (fun earlier id => do
    if ← view.accepts db.stores filter id then
      return earlier ++ [← db.newRow view table assignments earlier id]
    else return earlier) []

/-- Writes the new values to the matching rows in turn. Whether a row matches is asked when it is
reached, before its own fields are written. -/
def TableView.writeRows (view : TableView) (filter : Option Expr) (columns : List Column) :
    List RowId → List (List Value) → Change Unit
  | [], _ => return
  | id :: ids, rows => do
    if ← view.accepts (← get).stores filter id then
      match rows with
      | [] => return
      | row :: rows =>
        view.setAll id (columns.zip row)
        view.writeRows filter columns ids rows
    else view.writeRows filter columns ids rows

def Update.run (s : Update) : Change Unit := do
  let db ← get
  let columns ← (← db.schema s.table).assigned (s.assignments.map (·.1))
  let view ← db.view s.table none
  let filter ← s.filter.mapM (·.bind view.fieldCheck)
  let values ← s.assignments.mapM fun (_, tree) => tree.bind view.fieldCheck
  let assignments := (columns.zip values).map fun (column, value) => Assignment.mk column value
  let rows ← db.newRows view s.table filter assignments
  view.writeRows filter columns (view.rows db.stores).ids rows

end RelEngine
