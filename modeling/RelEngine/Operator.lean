/-!
The operators: those that statements are written with, and the fewer ones that expressions are made
of.
-/
namespace RelEngine

inductive Comparison where
  | eq
  | lt
  deriving DecidableEq

inductive Connective where
  | and
  | or
  | xor
  deriving DecidableEq

inductive ArithOp where
  | plus
  | minus
  | times
  | divide
  deriving DecidableEq

def ArithOp.symbol : ArithOp → String
  | .plus => "+"
  | .minus => "-"
  | .times => "*"
  | .divide => "/"

inductive Operator where
  | or
  | and
  | xor
  | plus
  | minus
  | times
  | divide
  | eq
  | notEq
  | lt
  | le
  | ge
  | gt
  | is
  | isNot
  deriving DecidableEq

namespace Operator

/-- Comparisons take two operands; the other operators fold over two or more. -/
def isComparison : Operator → Bool
  | .eq | .notEq | .lt | .le | .ge | .gt | .is | .isNot => true
  | _ => false

def name : Operator → String
  | .or => "Or"
  | .and => "And"
  | .xor => "Xor"
  | .plus => "Plus"
  | .minus => "Minus"
  | .times => "Mul"
  | .divide => "Div"
  | .eq => "Eq"
  | .notEq => "NotEq"
  | .lt => "Lt"
  | .le => "Le"
  | .ge => "Ge"
  | .gt => "Gt"
  | .is => "Is"
  | .isNot => "IsNot"

end Operator

end RelEngine
