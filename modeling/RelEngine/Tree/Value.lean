import RelEngine.Tree
import RelEngine.Value.Arith
import RelEngine.Value.Compare
import RelEngine.Value.Logic

/-!
What a tree means on a row, read off the tree itself: each operator has its own rule here, and none is
put in terms of another.

Binding goes the other way round, through a few primitive operators. Both agree on the values; of two
errors they may report different ones.
-/
namespace RelEngine

namespace Operator

/-- Which orders of two operands fulfil a comparison. A NaN has no order and differs from all. -/
def ordered? : Operator → Option (Option Ordering → Bool)
  | .eq => some fun o => o == some .eq
  | .notEq => some fun o => o != some .eq
  | .lt => some fun o => o == some .lt
  | .le => some fun o => o == some .lt || o == some .eq
  | .gt => some fun o => o == some .gt
  | .ge => some fun o => o == some .gt || o == some .eq
  | _ => none

/-- The step of an operator that folds over its operands. -/
def step? : Operator → Option (Value → Value → Checked Value)
  | .and => some fun a b => .ok (Value.connect .and a b)
  | .or => some fun a b => .ok (Value.connect .or a b)
  | .xor => some fun a b => .ok (Value.connect .xor a b)
  | .plus => some (Value.arith .plus)
  | .minus => some (Value.arith .minus)
  | .times => some (Value.arith .times)
  | .divide => some (Value.arith .divide)
  | _ => none

/-- The value of a comparison. NULL on either side makes it NULL, except for identity. -/
def compareValues (op : Operator) (a b : Value) : Checked Value :=
  match op.ordered?, a, b with
  | some holds, some x, some y => return Value.ofBool (holds (← x.order? y))
  | some _, _, _ => .ok none
  | none, _, _ => .ok (Value.ofBool (Value.identical a b == (op == .is)))

def apply (op : Operator) (operands : List Value) : Checked Value :=
  match op.step?, operands with
  | some step, first :: second :: rest => (second :: rest).foldlM step first
  | none, [a, b] => op.compareValues a b
  | _, [] | _, [_] => .error (.invalidExpression (.tooFew op operands.length))
  | _, _ => .error (.invalidExpression (.notTwo op operands.length))

end Operator

namespace Tree

mutual

def value (row : String → Checked Value) : Tree → Checked Value
  | .const v => .ok v
  | .field name => row name
  | .apply op operands => do op.apply (← values row operands)
  | .negate operand => do Value.arith .minus (some (.int 0)) (← operand.value row)
  | .not operand => return Value.not (← operand.value row)

def values (row : String → Checked Value) : List Tree → Checked (List Value)
  | [] => .ok []
  | t :: ts => do
    let v ← t.value row
    return v :: (← values row ts)

end

end Tree

end RelEngine
