import RelEngine.Scan.Pairs
import RelEngine.Scan.Rows
import RelEngine.Scan.Views
import RelEngine.Value.Arith
import RelEngine.Value.Compare
import RelEngine.Value.Logic

/-!
What expressions evaluate to and how plans are read. The two depend on each other: a plan evaluates
predicates and computed fields, and an expression may read a plan.
-/
namespace RelEngine

/-- Whether reading from the start yields a row. Nothing of the reading remains. -/
def Scan.hasRow {σ : Type} (scan : Scan σ) (stores : Stores) : Checked Bool :=
  ((do scan.rewind stores; scan.next stores : Move σ Bool).runFrom scan.start).1

/-- The row without fields, on which constant expressions are evaluated. -/
def noFields (name : String) : Checked Value := .error (.fieldNotFound name)

mutual

/-- The value of an expression on a row, given how the row's fields are read. Operands are evaluated
from left to right, and the first error ends the evaluation. -/
def Expr.eval : Expr → Stores → (String → Checked Value) → Checked Value
  | .const value, _, _ => .ok value
  | .field name, _, row => row name
  | .compare op left right, stores, row => do
    Value.relate op (← left.eval stores row) (← right.eval stores row)
  | .connect op left right, stores, row => do
    return Value.connect op (← left.eval stores row) (← right.eval stores row)
  | .arith op left right, stores, row => do
    Value.arith op (← left.eval stores row) (← right.eval stores row)
  | .not operand, stores, row => do return Value.not (← operand.eval stores row)
  | .is left right, stores, row => do
    return Value.is (← left.eval stores row) (← right.eval stores row)
  | .exists plan, stores, _ => do return Value.ofBool (← plan.scan.hasRow stores)

def Plan.scan : (plan : Plan) → Scan plan.State
  | .table view => Scan.table view
  | .product left right => Scan.product left.scan right.scan
  | .select child predicate =>
    child.scan.select fun stores row => return (← predicate.eval stores row).isTrue
  | .join outer inner predicate flipped =>
    Scan.Join.scan ⟨outer.scan, inner.scan,
      fun stores row => return (← predicate.eval stores row).isTrue, flipped⟩
  | .extend child value name => child.scan.extend (fun stores row => value.eval stores row) name
  | .single value name =>
    Scan.single (fun stores => value.eval stores noFields) name
  | .project child fields => child.scan.project fields

end

namespace Plan

def has (plan : Plan) (name : String) : Bool := plan.scan.has name

def read (plan : Plan) (stores : Stores) (s : plan.State) (name : String) : Checked Value :=
  plan.scan.read stores s name

end Plan

end RelEngine
