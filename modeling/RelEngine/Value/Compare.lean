import RelEngine.Error

/-!
Comparison and identity of values. Numbers of any kind compare by value; strings compare by code
points, which is also the order of their bytes.
-/
namespace RelEngine

/-- The order of two scalars; NaN has none. A number and a string cannot be compared. -/
def Scalar.order? : Scalar → Scalar → Checked (Option Ordering)
  | .text a, .text b => .ok (some (compare a b))
  | a, b =>
    match a.double?, b.double? with
    | some x, some y => .ok (x.order? y)
    | _, _ => .error (.typeMismatch a.type b.type)

/-- Whether the comparison holds between operands in the given order. -/
def Comparison.holds : Comparison → Option Ordering → Bool
  | .eq, o => o = some .eq
  | .lt, o => o = some .lt

namespace Value

/-- Compares two values. NULL on either side gives NULL. -/
def relate (op : Comparison) : Value → Value → Checked Value
  | some a, some b => do return ofBool (op.holds (← a.order? b))
  | _, _ => .ok null

/-- Identity, which always has an answer: NULL is NULL, and values that cannot be compared differ. -/
def identical : Value → Value → Bool
  | none, none => true
  | some (.text a), some (.text b) => a == b
  | some a, some b =>
    match a.double?, b.double? with
    | some x, some y => x.equal y
    | _, _ => false
  | _, _ => false

/-- `a IS b`. -/
def is (a b : Value) : Value := ofBool (identical a b)

end Value

end RelEngine
