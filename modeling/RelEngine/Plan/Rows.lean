import RelEngine.Plan.Eval

/-!
The rows that a plan stands for, as a list in the order of reading. There is no position here and
nothing moves; a row is known by what reading its fields gives.

This is what the readers of `Plan.scan` are held to. A row on which a predicate fails is left out, as
one on which it is not true. Which predicates fail on some row is said apart, by `Plan.Fails`.
-/
namespace RelEngine

/-- A row, by the result of reading each name. -/
abbrev Record := String → Checked Value

namespace Record

/-- A row of two parts. The names of the left part hide those of the right part. -/
def pair (leftHas : String → Bool) (left right : Record) : Record := fun field =>
  if leftHas field then left field else right field

def extend (record : Record) (name : String) (value : Checked Value) : Record := fun field =>
  if field == name then value else record field

def project (record : Record) (fields : List String) : Record := fun field =>
  if fields.contains field then record field else .error (.fieldNotFound field)

/-- The row of an outer join. Without an inner row the inner side's names are NULL. -/
def join (readsInner : String → Bool) (outer : Record) (inner : Option Record) : Record :=
  fun field =>
    if readsInner field then
      match inner with
      | some record => record field
      | none => .ok none
    else outer field

end Record

def Expr.accepts (predicate : Expr) (stores : Stores) (record : Record) : Checked Bool :=
  return (← predicate.eval stores record).isTrue

namespace Plan

def readsInner (outer inner : Plan) (flipped : Bool) (field : String) : Bool :=
  Scan.readsInner flipped (outer.has field) (inner.has field)

/-- The rows of an outer join for one outer row: its matches, or the row without one. -/
def joinedRows (readsInner : String → Bool) (accepts : Record → Checked Bool)
    (inner : List Record) (outer : Record) : List Record :=
  let pairs := inner.map fun record => Record.join readsInner outer (some record)
  let found := pairs.filter fun record => accepts record = .ok true
  if found.isEmpty then [Record.join readsInner outer none] else found

def rows (stores : Stores) : Plan → List Record
  | .table view => (view.rows stores).ids.map fun id => view.read stores (some id)
  | .product left right =>
    (left.rows stores).flatMap fun l => (right.rows stores).map fun r => Record.pair left.has l r
  | .select child predicate =>
    (child.rows stores).filter fun record => predicate.accepts stores record = .ok true
  | .join outer inner predicate flipped =>
    (outer.rows stores).flatMap
      (joinedRows (readsInner outer inner flipped) (predicate.accepts stores) (inner.rows stores))
  | .extend child value name =>
    (child.rows stores).map fun record => record.extend name (value.eval stores record)
  | .single value name => [Record.extend noFields name (value.eval stores noFields)]
  | .project child fields => (child.rows stores).map fun record => record.project fields

/-- A predicate of the plan fails with this error on a row or a pair of rows that it is asked about. -/
def Fails (stores : Stores) : Plan → Error → Prop
  | .table _, _ => False
  | .product left right, e => left.Fails stores e ∨ right.Fails stores e
  | .select child predicate, e =>
    child.Fails stores e ∨ ∃ record ∈ child.rows stores, predicate.accepts stores record = .error e
  | .join outer inner predicate flipped, e =>
    outer.Fails stores e ∨ inner.Fails stores e ∨
      ∃ o ∈ outer.rows stores, ∃ i ∈ inner.rows stores,
        predicate.accepts stores (Record.join (readsInner outer inner flipped) o (some i)) = .error e
  | .extend child _ _, e => child.Fails stores e
  | .single _ _, _ => False
  | .project child _, e => child.Fails stores e

end Plan

end RelEngine
