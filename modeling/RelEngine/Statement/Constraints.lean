import RelEngine.Database
import RelEngine.Value.Compare

/-!
The constraints on values: a unique column holds no value twice, and a reference finds its parent.
-/
namespace RelEngine

namespace TableView

/-- Whether a row holds a value equal to `value` under `field`. -/
def holds (t : TableView) (stores : Stores) (field : String) (value : Value) : Checked Bool :=
  (t.rows stores).ids.anyM fun id => do
    return (← Value.relate .eq value (← t.read stores (some id) field)).isTrue

end TableView

namespace Database

def holds (db : Database) (table field : String) (value : Value) : Checked Bool := do
  (← db.view table none).holds db.stores field value

/-- Refuses a value that a unique column holds already. NULLs never collide. -/
def checkUnique (db : Database) (table : String) (c : Column) (value : Value) : Checked Unit := do
  if c.unique && !value.isNull then
    if ← db.holds table c.name value then throw (.uniqueViolation table c.name)

/-- Refuses a value that a reference does not find in its parent. NULL refers to nothing. -/
def checkParents (db : Database) (table field : String) (value : Value) : Checked Unit := do
  if !value.isNull then
    (db.references.filter (·.hasChild table field)).forM fun r => do
      if !(← db.holds r.parentTable r.parentField value) then
        throw (.foreignKeyViolation table field)

/-- Refuses a change of a parent value that a child still refers to. -/
def checkChildren (db : Database) (r : Reference) (value : Value) (change : RowChange) :
    Checked Unit := do
  if !value.isNull && r.blocks change then
    if ← db.holds r.childTable r.childField value then
      throw (.foreignKeyViolation r.childTable r.childField)

end Database

end RelEngine
