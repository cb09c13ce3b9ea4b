import RelEngine.Plan.Eval
import RelEngine.Statement.Basic

/-!
DROP TABLE. A table goes with all references from and to it, unless a row of another table depends on
one of its rows.
-/
namespace RelEngine

/-- Whether a pair of a parent row and a child row is connected by the reference. -/
def Database.hasDependentRow (db : Database) (r : Reference) : Checked Bool := do
  let parent ← db.view r.parentTable (some "master")
  let child ← db.view r.childTable (some "slave")
  let connected :=
    Expr.compare .eq (.field ("slave." ++ r.childField)) (.field ("master." ++ r.parentField))
  (Plan.select (.product (.table parent) (.table child)) connected).scan.hasRow db.stores

def DropTable.run (s : DropTable) : Change Unit := do
  let db ← get
  let some smaller := db.removeTable? s.table | throw (.unknownTable s.table)
  db.references.forM fun r => do
    if r.parentTable == s.table && r.childTable != s.table && r.blocks .delete then
      if ← db.hasDependentRow r then throw (.dependentRows s.table)
  set { smaller with references := smaller.references.filter (·.parentTable != s.table) }

end RelEngine
