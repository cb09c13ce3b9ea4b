import RelEngine.Name
import RelEngine.Row
import RelEngine.RowStore

/-!
A table as expressions see it: its rows and its schema, under the name that qualifies its fields.
-/
namespace RelEngine

structure TableView where
  /-- The alias, or the table's own name. -/
  qualifier : String
  schema : Schema
  store : StoreId

namespace TableView

/-- The column that a name stands for. It may be bare or carry this view's qualifier; with any other
qualifier it is not a field here. -/
def local? (t : TableView) (name : String) : Option String :=
  match FieldName.parse name with
  | ⟨some qualifier, field⟩ =>
    if qualifier == t.qualifier && t.schema.has field then some field else none
  | ⟨none, _⟩ => if t.schema.has name then some name else none

def has (t : TableView) (name : String) : Bool := (t.local? name).isSome

def resolve (t : TableView) (name : String) : Checked String :=
  match t.local? name with
  | some field => .ok field
  | none => .error (.fieldNotFound name)

def rows (t : TableView) (stores : Stores) : RowStore := stores.rowsAt t.store

/-- A field of the row under `id`. Without a row, or if the row is gone, every field is NULL. -/
def read (t : TableView) (stores : Stores) (id : Option RowId) (name : String) : Checked Value := do
  let field ← t.resolve name
  match id.bind (t.rows stores).find? with
  | some row => Row.get t.schema row field
  | none => return none

def write (t : TableView) (stores : Stores) (id : Option RowId) (name : String) (value : Value) :
    Checked Stores := do
  let field ← t.resolve name
  let some id := id | throw .noCurrentRow
  let some row := (t.rows stores).find? id | throw .noCurrentRow
  let row ← Row.set t.schema row field value
  return stores.update t.store (·.modify id fun _ => row)

/-- Adds a row of NULLs under the next id. -/
def addBlank (t : TableView) (stores : Stores) : Stores × RowId :=
  let (rows, id) := (t.rows stores).allocate (Row.blank t.schema)
  (stores.update t.store fun _ => rows, id)

def remove (t : TableView) (stores : Stores) (id : RowId) : Stores :=
  stores.update t.store (·.erase id)

end TableView

end RelEngine
