import RelEngine.Schema
import RelEngine.Text.Utf8

/-!
Values as a column takes them. Numbers are brought to the column's kind; what would not fit into the
field, and NULL where the column forbids it, is refused.
-/
namespace RelEngine

/-- The largest 32-bit number, as a 64-bit one. -/
def largestFloat : Binary64 := (Binary.largest : Binary32).convert Format.double

namespace Column

/-- Strings are checked against the capacity in bytes. A zero byte would end a stored string. -/
def checkText (c : Column) (s : String) : Checked Unit := do
  let length := (Utf8.encode s).length
  if c.size < length then throw (.stringTooLong c.name c.size length)
  if s.toList.contains '\x00' then throw (.nulInString c.name)

/-- A scalar as the column stores it: numbers take the column's kind, and what does not fit is
refused. NaN and the infinities fit both kinds of binary numbers. -/
def convert (c : Column) (v : Scalar) : Checked Scalar :=
  let mismatch : Error := .typeMismatch c.type v.type
  match c.type, v with
  | .varchar, .text s => do
    c.checkText s
    return .text s
  | .varchar, _ | .bool, .text _ => .error mismatch
  | .bool, _ => .ok (.bool v.truth)
  | .int, _ =>
    match v.whole? with
    | some n => .ok (.int (Int32.ofInt n))
    | none => do
      let some x := v.double? | throw mismatch
      if !x.isBetween Int32.minValue.toInt Int32.maxValue.toInt then
        throw (.outOfRange c.name c.type v)
      return .int (Int32.ofInt x.truncate)
  | .float, _ => do
    let some x := v.double? | throw mismatch
    if x.isFinite && largestFloat.magnitude < x.magnitude then
      throw (.outOfRange c.name c.type v)
    return .float (x.convert Format.single)
  | .double, _ => do
    let some x := v.double? | throw mismatch
    return .double x

def normalize (c : Column) : Value → Checked Value
  | none => if c.nullable then .ok none else .error (.notNullViolation c.name)
  | some v => return some (← c.convert v)

end Column

end RelEngine
