import RelEngine.TableView

/-!
Expressions and plans. A plan says which rows are read and how they are combined; an expression says
what is computed from one row, and may ask whether a plan has any rows.

Neither holds a position. Where a reader of a plan stands is a value of `Plan.State`, whose shape
follows the plan.
-/
namespace RelEngine

mutual

inductive Expr where
  | const (value : Value)
  | field (name : String)
  | compare (op : Comparison) (left right : Expr)
  | connect (op : Connective) (left right : Expr)
  | arith (op : ArithOp) (left right : Expr)
  | not (operand : Expr)
  /-- Identity, under which NULL is NULL. -/
  | is (left right : Expr)
  /-- Whether the plan yields a row when it is read from its start. -/
  | exists (plan : Plan)

inductive Plan where
  | table (view : TableView)
  /-- All pairs of rows, the left side in the outer loop. -/
  | product (left right : Plan)
  | select (child : Plan) (predicate : Expr)
  /-- Every outer row with each inner row that fulfils the predicate, or once with NULLs if there is
  none. In a flipped join the inner side is the left table of the query and is asked first for a
  name. -/
  | join (outer inner : Plan) (predicate : Expr) (flipped : Bool)
  | extend (child : Plan) (value : Expr) (name : String)
  /-- One row with a computed field and no other. -/
  | single (value : Expr) (name : String)
  | project (child : Plan) (fields : List String)

end

/-- Where a reader of a table stands. -/
inductive Position where
  | beforeFirst
  | onRow (id : RowId)
  /-- The row under the reader was removed. The next row is the first one above it. -/
  | afterRemoved (id : RowId)
  | exhausted
  deriving DecidableEq

structure ProductState (α β : Type) where
  left : α
  right : β
  /-- There is a left row to be combined. -/
  leftOnRow : Bool

structure JoinState (α β : Type) where
  outer : α
  inner : β
  /-- There is an outer row to be combined. -/
  outerOnRow : Bool
  /-- The outer row has met a match. -/
  outerMatched : Bool
  /-- The current row is an outer row without a match, and inner fields are NULL. -/
  innerNull : Bool

def Plan.State : Plan → Type
  | .table _ => Position
  | .product left right => ProductState left.State right.State
  | .select child _ => child.State
  | .join outer inner _ _ => JoinState outer.State inner.State
  | .extend child _ _ => child.State
  | .single _ _ => Bool
  | .project child _ => child.State

end RelEngine
