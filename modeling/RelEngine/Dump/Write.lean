import RelEngine.Database
import RelEngine.Dump.Files

/-!
Writing a database to dump files.

Texts end with a zero byte and numbers stand with the most significant byte first. What a reference
asks for on a change is not written.
-/
namespace RelEngine.Dump

def text (s : String) : Bytes := Utf8.encode s ++ [0]

def flag (b : Bool) : Bytes := [if b then 1 else 0]

def length (n : Nat) : Checked Bytes :=
  if n < Nat.pow 2 32 then .ok (Bytes.bigEndian 4 n) else .error (.corruptDump (.lengthTooLarge n))

/-- The program stops before a table has an id that is refused here. -/
def rowId (id : RowId) : Checked Bytes :=
  if id < RowId.limit then .ok (Bytes.bigEndian 8 id) else .error (.corruptDump (.rowIdTooLarge id))

def column (c : Column) : Checked Bytes := do
  return text c.name ++ flag c.nullable ++ flag c.unique ++ [UInt8.ofNat c.type.tag]
    ++ (← length c.size)

def table (name : String) (schema : Schema) : Checked Bytes := do
  let count ← length schema.size
  return text name ++ count ++ (← schema.columns.mapM column).flatten

def row (entry : RowId × Bytes) : Checked Bytes := return (← rowId entry.1) ++ entry.2

def reference (r : Reference) : Bytes :=
  text r.childTable ++ text r.childField ++ text r.parentTable ++ text r.parentField

structure TablePart where
  file : String
  schema : Bytes
  rows : Bytes

def tablePart (fits : String → Bool) (stores : Stores) (entry : String × Table) : Checked TablePart := do
  let (name, t) := entry
  let some file := Files.ofTable? name | throw (.file (.unusableName name))
  let schema ← table name t.schema
  let rows ← (stores.rowsAt t.store).rows.entries.mapM row
  Files.checkName fits file
  return ⟨file, schema, rows.flatten⟩

end Dump

/-- The files of a database. The schemas and the references are written last, also over the file of a
table that has the same name. -/
def Database.dump (db : Database) (fits : String → Bool := Files.short) : Checked Files := do
  let parts ← db.tables.entries.mapM (Dump.tablePart fits db.stores)
  Files.checkName fits Files.schemas
  Files.checkName fits Files.references
  let files := parts.foldl (fun (files : Files) part => files.insert part.file part.rows) .empty
  let files := files.insert Files.schemas (parts.flatMap (·.schema))
  return files.insert Files.references (db.references.flatMap Dump.reference)

end RelEngine
