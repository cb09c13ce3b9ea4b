import RelEngine.Statement.Basic

/-!
CREATE TABLE. Of columns with the same name the first counts. Foreign keys are checked before anything
is added, and a table may refer to itself.
-/
namespace RelEngine

/-- The reference that a foreign key of a new table stands for. Its two fields must both be numbers or
both be strings. -/
def ForeignKey.resolve (fk : ForeignKey) (db : Database) (table : String) (schema : Schema) :
    Checked Reference := do
  let child ← schema.column fk.field
  let parentSchema ← if fk.parentTable == table then pure schema else db.schema fk.parentTable
  let parent ← parentSchema.column fk.parentField
  if child.type.isNumeric != parent.type.isNumeric then
    throw (.typeMismatch parent.type child.type)
  return ⟨table, fk.field, fk.parentTable, fk.parentField, fk.onDelete, fk.onUpdate⟩

def CreateTable.run (s : CreateTable) : Change Unit := do
  let db ← get
  let schema := Schema.ofColumns s.columns
  let some larger := db.addTable? s.table schema | throw (.tableExists s.table)
  let references ← s.foreignKeys.mapM (·.resolve db s.table schema)
  set (references.foldl Database.addReference larger)

end RelEngine
