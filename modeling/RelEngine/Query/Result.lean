import RelEngine.Query.Open

/-!
Reading the rows of an opened query. A row is read as a whole: the first field that fails stops the
reading.
-/
namespace RelEngine.OpenQuery

def row (fields : List String) (stores : Stores) (c : Cursor) : Checked (List Value) :=
  fields.mapM (c.read stores)

/-- All rows that follow, with the error that cut them short if there was one. -/
def read (r : OpenQuery) (stores : Stores) : Cursor.Reading (List Value) :=
  r.cursor.readAll stores (row r.fields stores)

/-- All rows that follow, if none fails. -/
def collect (r : OpenQuery) (stores : Stores) : Checked (List (List Value)) :=
  let reading := r.read stores
  match reading.stopped with
  | none => .ok reading.rows
  | some e => .error e

/-- A line with the field names and a line for each row, with bars between the cells. -/
def render (r : OpenQuery) (stores : Stores) : Checked String := do
  let rows ← r.collect stores
  let lines := r.fields :: rows.map (·.map Value.display)
  return String.join (lines.map fun cells => "|".intercalate cells ++ "\n")

end RelEngine.OpenQuery
