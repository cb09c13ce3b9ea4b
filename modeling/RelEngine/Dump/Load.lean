import RelEngine.Database
import RelEngine.Dump.Files
import RelEngine.Dump.Reader

/-!
Reading a database back from dump files. The rows of a table are read right after its schema, so of
two faults the one that stands first is reported.
-/
namespace RelEngine.Dump

def readColumn : Read Column := do
  let name ← Read.text
  let nullable ← Read.number 1
  let unique ← Read.number 1
  let tag ← Read.number 1
  let some type := DataType.ofTag? tag | Read.corrupt (.unknownTag tag)
  let size ← Read.number 4
  return ⟨name, type, size, nullable != 0, unique != 0⟩

/-- Adds the next `count` columns. Of columns with the same name the first counts. -/
def readColumns : (count : Nat) → Schema → Read Schema
  | 0, schema => return schema
  | count + 1, schema => do readColumns count (schema.add (← readColumn))

/-- Adds the next row. A row with the same id is replaced. -/
def readRow (rowSize : Nat) (rows : RowStore) : Read RowStore := do
  let id ← Read.number 8
  return rows.insert id (← Read.take rowSize)

def loadRows (files : Files) (table : String) (rowSize : Nat) : Checked RowStore := do
  let some file := Files.ofTable? table | throw (.corruptDump (.invalidTableName table))
  let bytes ← files.content file
  (Read.untilEnd (readRow rowSize) .empty).run file bytes

def readTable (files : Files) (db : Database) : Read Database := do
  let name ← Read.text
  let schema ← readColumns (← Read.number 4) .empty
  let some db := db.addTable? name schema | Read.corrupt (.tableListedTwice name)
  let rows ← loadRows files name schema.rowSize
  let t ← db.table name
  return { db with stores := db.stores.update t.store fun _ => rows }

/-- Adds the next reference. A dump does not tell what is asked for on a change, and nothing is. -/
def readReference (db : Database) : Read Database := do
  let childTable ← Read.text
  let childField ← Read.text
  let parentTable ← Read.text
  let parentField ← Read.text
  return db.addReference
    ⟨childTable, childField, parentTable, parentField, .noAction, .noAction⟩

end Dump

/-- The database that a dump holds. Its rows are kept beside those in `stores`, which other cursors
may still read. -/
def Database.load (files : Files) (stores : Stores) : Checked Database := do
  let bytes ← files.content Files.schemas
  let db ← (Read.untilEnd (Dump.readTable files) ⟨stores, .empty, []⟩).run Files.schemas bytes
  let bytes ← files.content Files.references
  (Read.untilEnd Dump.readReference db).run Files.references bytes

end RelEngine
