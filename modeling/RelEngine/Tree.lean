import RelEngine.Plan.Basic

/-!
Expressions as statements hold them, and their binding: field names are checked, and the operators
of statements are put in terms of the primitive ones.
-/
namespace RelEngine

inductive Tree where
  | const (value : Value)
  | field (name : String)
  /-- An operator with any number of operands. -/
  | apply (op : Operator) (operands : List Tree)
  | negate (operand : Tree)
  | not (operand : Tree)

/-- Accepts or refuses a field name. -/
abbrev FieldCheck := String → Checked Unit

namespace FieldCheck

/-- No fields may be named. -/
def forbidden : FieldCheck := fun name => .error (.fieldAccessForbidden name)

def among (has : String → Bool) : FieldCheck := fun name =>
  if has name then .ok () else .error (.fieldNotFound name)

end FieldCheck

namespace Operator

/-- Folds two or more operands from the left. -/
def foldOperands (op : Operator) (node : Expr → Expr → Expr) :
    List (Checked Expr) → Checked Expr
  | first :: second :: rest => do
    (second :: rest).foldlM (fun left right => return node left (← right)) (← first)
  | operands => .error (.invalidExpression (.tooFew op operands.length))

/-- Takes exactly two operands. -/
def pairOperands (op : Operator) (node : Checked Expr → Checked Expr → Checked Expr) :
    List (Checked Expr) → Checked Expr
  | [a, b] => node a b
  | operands =>
    if operands.length < 2 then .error (.invalidExpression (.tooFew op operands.length))
    else .error (.invalidExpression (.notTwo op operands.length))

/-- The expression for an operator on bound operands. The order in which a comparison takes its
operands decides which of two errors is reported. -/
def bind (op : Operator) (operands : List (Checked Expr)) : Checked Expr :=
  match op with
  | .and => op.foldOperands (.connect .and) operands
  | .or => op.foldOperands (.connect .or) operands
  | .xor => op.foldOperands (.connect .xor) operands
  | .plus => op.foldOperands (.arith .plus) operands
  | .minus => op.foldOperands (.arith .minus) operands
  | .times => op.foldOperands (.arith .times) operands
  | .divide => op.foldOperands (.arith .divide) operands
  | .eq => op.pairOperands (fun a b => return .compare .eq (← a) (← b)) operands
  | .notEq => op.pairOperands (fun a b => return .not (.compare .eq (← a) (← b))) operands
  | .lt => op.pairOperands (fun a b => return .compare .lt (← a) (← b)) operands
  | .gt => op.pairOperands (fun a b => return .compare .lt (← b) (← a)) operands
  | .le =>
    op.pairOperands (fun a b => do
      let a ← a
      let b ← b
      return .connect .or (.compare .lt a b) (.compare .eq a b)) operands
  | .ge =>
    op.pairOperands (fun a b => do
      let b ← b
      let a ← a
      return .connect .or (.compare .lt b a) (.compare .eq a b)) operands
  | .is => op.pairOperands (fun a b => return .is (← a) (← b)) operands
  | .isNot => op.pairOperands (fun a b => return .not (.is (← a) (← b))) operands

end Operator

namespace Tree

mutual

/-- The executable form of a tree. Unary minus is the difference from zero. -/
def bind (check : FieldCheck) : Tree → Checked Expr
  | .const value => .ok (.const value)
  | .field name => do
    check name
    return .field name
  | .apply op operands => op.bind (bindEach check operands)
  | .negate operand => do
    return .arith .minus (.const (some (.int 0))) (← operand.bind check)
  | .not operand => return .not (← operand.bind check)

def bindEach (check : FieldCheck) : List Tree → List (Checked Expr)
  | [] => []
  | t :: ts => t.bind check :: bindEach check ts

end

end Tree

end RelEngine
