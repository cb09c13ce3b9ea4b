import RelEngine.Plan.Basic
import RelEngine.Scan.Basic

/-!
The readers that rows come from: the rows of a table in the order of their ids, and a single row that
is only computed.
-/
namespace RelEngine

namespace Position

/-- The row that the reader shows. -/
def rowId? : Position → Option RowId
  | .onRow id => some id
  | _ => none

/-- The row that a reader goes to next, as the table is now. -/
def following? (rows : RowStore) : Position → Option RowId
  | .beforeFirst => rows.firstId?
  | .onRow id | .afterRemoved id => rows.idAfter? id
  | .exhausted => none

/-- On the row, or past the last one. -/
def ofRow? : Option RowId → Position
  | some id => .onRow id
  | none => .exhausted

end Position

namespace Scan

def table (t : TableView) : Scan Position where
  start := .beforeFirst
  rowBound stores := (t.rows stores).size
  has := t.has
  read stores position := t.read stores position.rowId?
  rewind _ := set Position.beforeFirst
  next stores := do
    let row := (← get).following? (t.rows stores)
    set (Position.ofRow? row)
    return row.isSome

/-- One row with one computed field. The state tells whether the row is still to come. -/
def single (value : Stores → Checked Value) (name : String) : Scan Bool where
  start := true
  rowBound _ := 1
  has field := field == name
  read stores _ field := if field == name then value stores else .error (.fieldNotFound field)
  rewind _ := set true
  next _ := do
    let pending ← get
    set false
    return pending

end Scan

end RelEngine
