import RelEngine.Plan.Update
import RelEngine.Tree

/-!
Cursors: plans with a reader's place in them. A cursor built over others starts where they stand.
-/
namespace RelEngine

structure Cursor where
  plan : Plan
  state : plan.State

namespace Cursor

def step {α : Type} (c : Cursor) (move : Scan c.plan.State → Move c.plan.State α) :
    Checked α × Cursor :=
  let (result, state) := (move c.plan.scan).runFrom c.state
  (result, { c with state })

def rewind (c : Cursor) (stores : Stores) : Checked Unit × Cursor := c.step (·.rewind stores)

def next (c : Cursor) (stores : Stores) : Checked Bool × Cursor := c.step (·.next stores)

/-- The cursor back at its start, or the error that prevents it. -/
def rewound (c : Cursor) (stores : Stores) : Checked Cursor :=
  match c.rewind stores with
  | (.ok (), c) => .ok c
  | (.error e, _) => .error e

def has (c : Cursor) (field : String) : Bool := c.plan.has field

def fieldCheck (c : Cursor) : FieldCheck := .among c.has

def read (c : Cursor) (stores : Stores) (field : String) : Checked Value :=
  c.plan.read stores c.state field

def write (c : Cursor) (stores : Stores) (field : String) (value : Value) : Checked Stores :=
  c.plan.write stores c.state field value

def insert (c : Cursor) (stores : Stores) : Stores × Cursor :=
  let (stores, state) := c.plan.insert stores c.state
  (stores, { c with state })

def remove (c : Cursor) (stores : Stores) : Checked (Stores × Cursor) := do
  let (stores, state) ← c.plan.remove stores c.state
  return (stores, { c with state })

def close (c : Cursor) : Cursor := { c with state := c.plan.close c.state }

def table (view : TableView) : Cursor := ⟨.table view, Position.beforeFirst⟩

def product (left right : Cursor) (stores : Stores) : Checked Cursor :=
  Cursor.rewound
    ⟨.product left.plan right.plan, ProductState.mk left.state right.state false⟩ stores

def select (child : Cursor) (predicate : Expr) : Cursor :=
  ⟨.select child.plan predicate, child.state⟩

/-- An outer join, with its outer side on the first row. -/
def join (outer inner : Cursor) (predicate : Expr) (flipped : Bool) (stores : Stores) :
    Checked Cursor :=
  Cursor.rewound
    ⟨.join outer.plan inner.plan predicate flipped,
      JoinState.mk outer.state inner.state false false false⟩ stores

/-- An outer join whose predicate is made for the join itself. The outer side is positioned before
that, so an error in reading it comes first. -/
def joinOn (outer inner : Cursor) (flipped : Bool) (predicate : Cursor → Checked Expr)
    (stores : Stores) : Checked Cursor := do
  let unfiltered ← join outer inner (.const (Value.ofBool true)) flipped stores
  join outer inner (← predicate unfiltered) flipped stores

def leftJoin (left right : Cursor) (predicate : Cursor → Checked Expr) (stores : Stores) :
    Checked Cursor :=
  joinOn left right false predicate stores

def rightJoin (left right : Cursor) (predicate : Cursor → Checked Expr) (stores : Stores) :
    Checked Cursor :=
  joinOn right left true predicate stores

def extend (child : Cursor) (value : Expr) (name : String) : Cursor :=
  ⟨.extend child.plan value name, child.state⟩

def single (value : Expr) (name : String) : Cursor := ⟨.single value name, true⟩

def project (child : Cursor) (fields : List String) : Cursor :=
  ⟨.project child.plan fields, child.state⟩

/-- What came of reading to the end: the rows, the error that ended the reading if there was one, and
the cursor where it stopped. -/
structure Reading (α : Type) where
  rows : List α
  stopped : Option Error
  cursor : Cursor

/-- Reads rows until there are no more or one fails, over at most `fuel` steps. -/
def readOn {α : Type} (stores : Stores) (row : Cursor → Checked α) : Nat → Cursor → Reading α
  | 0, c => ⟨[], none, c⟩
  | fuel + 1, c =>
    match c.next stores with
    | (.error e, c) => ⟨[], some e, c⟩
    | (.ok false, c) => ⟨[], none, c⟩
    | (.ok true, c) =>
      match row c with
      | .error e => ⟨[], some e, c⟩
      | .ok r =>
        let rest := readOn stores row fuel c
        { rest with rows := r :: rest.rows }

def readAll {α : Type} (c : Cursor) (stores : Stores) (row : Cursor → Checked α) : Reading α :=
  readOn stores row (c.plan.scan.rowBound stores + 1) c

end Cursor

end RelEngine
