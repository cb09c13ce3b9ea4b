import RelEngine.Plan.Eval
import RelEngine.Schema.Fit
import RelEngine.Statement.Basic
import RelEngine.Statement.Constraints

/-!
INSERT. Each row is checked against the table as the rows before it left it, and then written; the
rows before a refused one stay.
-/
namespace RelEngine

/-- The columns of a list of field names, which must name every column that is never NULL. Without a
list these are all columns. -/
def Schema.targets (schema : Schema) (fields : Option (List String)) : Checked (List Column) :=
  match fields with
  | none => .ok schema.columns
  | some fields => do
    let columns ← go [] fields
    match schema.columns.find? fun c => !c.nullable && !fields.contains c.name with
    | some c => throw (.missingField c.name)
    | none => return columns
where
  /-- The columns of the names that follow those in `seen`. -/
  go (seen : List String) : List String → Checked (List Column)
    | [] => .ok []
    | field :: rest => do
      if seen.contains field then throw (.duplicateField field)
      let column ← schema.column field
      return column :: (← go (field :: seen) rest)

/-- The value of an expression without fields, as the column takes it. -/
def Database.accepted (db : Database) (table : String) (c : Column) (tree : Tree) :
    Checked Value := do
  let value ← (← tree.bind .forbidden).eval db.stores noFields
  let value ← c.normalize value
  db.checkUnique table c value
  db.checkParents table c.name value
  return value

/-- Writes values into fields of one row, one after the other. -/
def TableView.setAll (view : TableView) (id : RowId) (fields : List (Column × Value)) :
    Change Unit :=
  fields.forM fun (column, value) => do
    let db ← get
    set { db with stores := (← view.write db.stores (some id) column.name value) }

def TableView.insertRow (view : TableView) (table : String) (columns : List Column)
    (row : List Tree) : Change Unit := do
  let db ← get
  let values ← (columns.zip row).mapM fun (column, tree) => db.accepted table column tree
  let (stores, id) := view.addBlank db.stores
  set { db with stores }
  view.setAll id (columns.zip values)

def Insert.run (s : Insert) : Change Unit := do
  let db ← get
  let columns ← (← db.schema s.table).targets s.fields
  match s.rows.find? (·.length != columns.length) with
  | some row => throw (.invalidQuery (.wrongArity columns.length row.length))
  | none =>
    let view ← db.view s.table none
    s.rows.forM (view.insertRow s.table columns)

end RelEngine
