import RelEngine.Operator
import RelEngine.Value.Basic

/-!
Three-valued logic. Any value stands for its truth, and an unknown truth is written as NULL.
-/
namespace RelEngine

/-- The truth table of a connective. A false operand decides a conjunction, a true one a disjunction,
whatever the other operand is. -/
def Connective.apply : Connective → Option Bool → Option Bool → Option Bool
  | .and, some false, _ | .and, _, some false => some false
  | .and, some true, some true => some true
  | .or, some true, _ | .or, _, some true => some true
  | .or, some false, some false => some false
  | .xor, some a, some b => some (a != b)
  | _, _, _ => none

namespace Value

def ofTruth (t : Option Bool) : Value := t.map Scalar.bool

def connect (c : Connective) (a b : Value) : Value := ofTruth (c.apply a.truth b.truth)

def not (v : Value) : Value := ofTruth (v.truth.map Bool.not)

end Value

end RelEngine
