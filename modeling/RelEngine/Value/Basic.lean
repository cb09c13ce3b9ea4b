import RelEngine.DataType
import RelEngine.Number.Arith
import RelEngine.Number.Shortest

/-!
The values of the engine. A scalar has one of the five storable types; a value is a scalar or NULL,
and NULL has no type.
-/
namespace RelEngine

inductive Scalar where
  | bool (b : Bool)
  | int (n : Int32)
  | float (x : Binary32)
  | double (x : Binary64)
  | text (s : String)
  deriving DecidableEq

/-- A scalar, or `none` for NULL. -/
abbrev Value := Option Scalar

namespace Scalar

def type : Scalar → DataType
  | .bool _ => .bool
  | .int _ => .int
  | .float _ => .float
  | .double _ => .double
  | .text _ => .varchar

/-- The integer behind a boolean or an integer. -/
def whole? : Scalar → Option Int
  | .bool b => some b.toInt
  | .int n => some n.toInt
  | _ => none

/-- The 32-bit number of any kind below double, rounded if need be. -/
def single? : Scalar → Option Binary32
  | .float x => some x
  | s => s.whole?.map Binary.ofInt

/-- The 64-bit number of any numeric kind. No kind loses precision here. -/
def double? : Scalar → Option Binary64
  | .double x => some x
  | .float x => some (x.convert Format.double)
  | s => s.whole?.map Binary.ofInt

/-- What the scalar means as a condition: numbers are true unless zero, strings unless empty. -/
def truth : Scalar → Bool
  | .bool b => b
  | .int n => n != 0
  | .float x => !x.isZero
  | .double x => !x.isZero
  | .text s => !s.isEmpty

/-- Equality within one type, by the number's value for floats. -/
def same : Scalar → Scalar → Bool
  | .bool a, .bool b => a == b
  | .int a, .int b => a == b
  | .float a, .float b => a.equal b
  | .double a, .double b => a.equal b
  | .text a, .text b => a == b
  | _, _ => false

/-- The display text. Strings stand in single quotes as they are. -/
def display : Scalar → String
  | .bool b => if b then "true" else "false"
  | .int n => if n.toInt < 0 then "-" ++ Nat.repr n.toInt.natAbs else Nat.repr n.toInt.natAbs
  | .float x => x.text
  | .double x => x.text
  | .text s => "'" ++ s ++ "'"

end Scalar

namespace Value

def null : Value := none

def ofBool (b : Bool) : Value := some (.bool b)

def isNull (v : Value) : Bool := v.isNone

def type? (v : Value) : Option DataType := v.map Scalar.type

def typeName (v : Value) : String :=
  match v.type? with
  | none => "NULL"
  | some t => t.name

def isNumeric (v : Value) : Bool := v.type?.any DataType.isNumeric

def double? (v : Value) : Option Binary64 := v.bind Scalar.double?

/-- The truth of a value used as a condition; NULL is unknown. -/
def truth (v : Value) : Option Bool := v.map Scalar.truth

/-- A condition holds only if it is known to. -/
def isTrue (v : Value) : Bool := v.truth == some true

/-- Equality of kind and content, under which NULL is itself and a NaN is nothing. -/
def same : Value → Value → Bool
  | none, none => true
  | some a, some b => a.same b
  | _, _ => false

def display : Value → String
  | none => "NULL"
  | some s => s.display

end Value

end RelEngine
