import RelEngine.Reference
import RelEngine.TableView

/-!
The database: named tables, the references between them, and the rows of all tables.
-/
namespace RelEngine

structure Table where
  schema : Schema
  store : StoreId

structure Database where
  stores : Stores
  tables : SortedMap String Table
  /-- In the order in which they were declared. -/
  references : List Reference

namespace Database

def empty : Database := ⟨[], .empty, []⟩

instance : Inhabited Database := ⟨empty⟩

def has (db : Database) (table : String) : Bool := db.tables.contains table

def tableNames (db : Database) : List String := db.tables.keys

def table (db : Database) (name : String) : Checked Table :=
  match db.tables.find? name with
  | some table => .ok table
  | none => .error (.unknownTable name)

def schema (db : Database) (name : String) : Checked Schema := return (← db.table name).schema

/-- A table under its own name or an alias. -/
def view (db : Database) (name : String) (alias? : Option String) : Checked TableView := do
  let table ← db.table name
  return ⟨alias?.getD name, table.schema, table.store⟩

def rows (db : Database) (name : String) : Checked RowStore :=
  return db.stores.rowsAt (← db.table name).store

def rowCount (db : Database) (name : String) : Checked Nat := return (← db.rows name).size

/-- Adds an empty table, unless the name is taken. -/
def addTable? (db : Database) (name : String) (schema : Schema) : Option Database :=
  if db.has name then none
  else
    let (stores, store) := db.stores.extend
    some { db with stores, tables := db.tables.insert name ⟨schema, store⟩ }

/-- Removes a table with the references that it declared. Its rows stay for the cursors that read
them. -/
def removeTable? (db : Database) (name : String) : Option Database :=
  if db.has name then
    some { db with
      tables := db.tables.erase name
      references := db.references.filter (·.childTable != name) }
  else none

def addReference (db : Database) (r : Reference) : Database :=
  { db with references := db.references ++ [r] }

end Database

end RelEngine
