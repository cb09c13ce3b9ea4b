import RelEngine.TableView
import RelEngine.Tree.Value

/-!
Relations: rows of cells under a heading of column names, with the operations that queries are made of.
There is no cursor here. A joined row always has the columns of the left side first, whichever side the
outer loop goes over.

A cell holds what its evaluation gave, be it a value or an error, and a condition that fails on a row does
not hold on it. So every operation has a result, and the log tells whether anything failed on the way.
-/
namespace RelEngine

structure Relation where
  heading : List FieldName
  /-- Each row has one cell per column. -/
  rows : List (List (Checked Value))
  /-- What every condition and every computed column gave on each row it was evaluated on. -/
  log : List (Checked Value)

/-- Whether a name stands for a column: bare, or with the column's qualifier. -/
def FieldName.isNamed (column : FieldName) (name : String) : Bool :=
  column.field == name || column.qualifier.isSome && FieldName.parse name == column

namespace Relation

/-- The cell that a name has in a row. If it stands for several columns, the first counts. -/
def lookup (heading : List FieldName) (row : List (Checked Value)) (name : String) : Checked Value :=
  match (heading.zip row).find? (·.1.isNamed name) with
  | some (_, cell) => cell
  | none => .error (.fieldNotFound name)

def evaluate (heading : List FieldName) (tree : Tree) (row : List (Checked Value)) : Checked Value :=
  tree.value (lookup heading row)

def fulfils (heading : List FieldName) (condition : Tree) (row : List (Checked Value)) : Bool :=
  (evaluate heading condition row).toOption.any Value.isTrue

def ofTable (t : TableView) (stores : Stores) : Relation where
  heading := t.schema.names.map fun name => ⟨some t.qualifier, name⟩
  rows := (t.rows stores).rows.entries.map fun (_, row) =>
    t.schema.slots.map fun slot => .ok (Row.read row slot)
  log := []

/-- One row without columns, which changes nothing in a product. -/
def unit : Relation := ⟨[], [[]], []⟩

def nullRow (r : Relation) : List (Checked Value) := r.heading.map fun _ => .ok none

def product (left right : Relation) : Relation where
  heading := left.heading ++ right.heading
  rows := left.rows.flatMap fun l => right.rows.map fun r => l ++ r
  log := left.log ++ right.log

/-- The log of a join: its condition is evaluated on all pairs. -/
def joinLog (left right : Relation) (on : Tree) : List (Checked Value) :=
  let all := left.product right
  all.log ++ all.rows.map (evaluate all.heading on)

/-- The pairs that fulfil a condition, the right side in the outer loop. -/
def innerJoin (left right : Relation) (on : Tree) : Relation where
  heading := left.heading ++ right.heading
  rows := right.rows.flatMap fun r =>
    (left.rows.map fun l => l ++ r).filter (fulfils (left.heading ++ right.heading) on)
  log := left.joinLog right on

/-- Each left row with its matches, or once with NULLs. -/
def leftJoin (left right : Relation) (on : Tree) : Relation where
  heading := left.heading ++ right.heading
  rows := left.rows.flatMap fun l =>
    let found := (right.rows.map fun r => l ++ r).filter
      (fulfils (left.heading ++ right.heading) on)
    if found.isEmpty then [l ++ right.nullRow] else found
  log := left.joinLog right on

/-- Each right row with its matches, or once with NULLs. -/
def rightJoin (left right : Relation) (on : Tree) : Relation where
  heading := left.heading ++ right.heading
  rows := right.rows.flatMap fun r =>
    let found := (left.rows.map fun l => l ++ r).filter
      (fulfils (left.heading ++ right.heading) on)
    if found.isEmpty then [left.nullRow ++ r] else found
  log := left.joinLog right on

def extend (r : Relation) (value : Tree) (name : String) : Relation where
  heading := r.heading ++ [⟨none, name⟩]
  rows := r.rows.map fun row => row ++ [evaluate r.heading value row]
  log := r.log ++ r.rows.map (evaluate r.heading value)

def restrict (r : Relation) (condition : Tree) : Relation where
  heading := r.heading
  rows := r.rows.filter (fulfils r.heading condition)
  log := r.log ++ r.rows.map (evaluate r.heading condition)

end Relation

end RelEngine
