import RelEngine.Error

/-!
Arithmetic on values. Operands are brought to the wider of their kinds, booleans at least to integers.
Integer results are exact or refused, `+` joins strings, and NULL on either side gives NULL.
-/
namespace RelEngine

/-- The integer as a 32-bit one, if it fits. -/
def int32? (n : Int) : Option Int32 :=
  if Int32.minValue.toInt ≤ n ∧ n ≤ Int32.maxValue.toInt then some (Int32.ofInt n) else none

namespace ArithOp

/-- The exact result on integers. Division drops the fraction, so it rounds toward zero. -/
def onInts : ArithOp → Int → Int → Checked Int
  | .plus, a, b => .ok (a + b)
  | .minus, a, b => .ok (a - b)
  | .times, a, b => .ok (a * b)
  | .divide, a, b => if b = 0 then .error .divisionByZero else .ok (a.tdiv b)

/-- The rounded result on binary numbers, where division by zero has one too. -/
def onBinary {f : Format} : ArithOp → Binary f → Binary f → Binary f
  | .plus, a, b => a.add b
  | .minus, a, b => a.sub b
  | .times, a, b => a.mul b
  | .divide, a, b => a.div b

end ArithOp

/-- The result on two scalars. Without a common kind that has the operator, it is refused. -/
def Scalar.arith (op : ArithOp) (a b : Scalar) : Checked Scalar :=
  let refused : Error := .invalidOperation op a.type b.type
  match op, a, b with
  | .plus, .text s, .text t => .ok (.text (s ++ t))
  | _, _, _ =>
    if let (some m, some n) := (a.whole?, b.whole?) then do
      let some r := int32? (← op.onInts m n) | throw refused
      return .int r
    else if let (some x, some y) := (a.single?, b.single?) then
      .ok (.float (op.onBinary x y))
    else if let (some x, some y) := (a.double?, b.double?) then
      .ok (.double (op.onBinary x y))
    else
      .error refused

def Value.arith (op : ArithOp) : Value → Value → Checked Value
  | some a, some b => do return some (← a.arith op b)
  | _, _ => .ok none

end RelEngine
