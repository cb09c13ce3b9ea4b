import RelEngine.Query.Result
import RelEngine.Statement.Run

/-!
A demonstration: two small tables, a left join of them, and its rows on standard output.
-/
namespace RelEngine.Demo

def texts (values : List String) : List Tree := values.map fun s => .const (some (.text s))

def statements : List Statement := [
  .createTable ⟨"people", [(Column.plain "first_name" .varchar 255).primaryKey,
    Column.plain "last_name" .varchar 255], []⟩,
  .createTable ⟨"songs", [(Column.plain "name" .varchar 255).primaryKey,
    Column.plain "song" .int 0], []⟩,
  .insert ⟨"people", none,
    [texts ["Egor", "Letov"], texts ["John", "Lennon"], texts ["Noname", ""]]⟩,
  .insert ⟨"songs", none, [[.const (some (.text "Egor")), .const (some (.int 5))],
    [.const (some (.text "Noname")), .const (some (.int 100))]]⟩]

def songsOfPeople : Query where
  items := [.field "first_name", .field "last_name", .field "song"]
  sources := [.table "people" none]
  joins := [⟨.left, "songs", some "t", .apply .eq [.field "t.name", .field "people.first_name"]⟩]
  filter := none

def output : Checked String := do
  let (result, db) := (statements.forM Statement.run).runFrom Database.empty
  result
  (← db.query songsOfPeople).render db.stores

end RelEngine.Demo

def main : IO UInt32 := do
  match RelEngine.Demo.output with
  | .ok text =>
    IO.print text
    return 0
  | .error e =>
    IO.eprintln s!"error: {e.message}"
    return 1
