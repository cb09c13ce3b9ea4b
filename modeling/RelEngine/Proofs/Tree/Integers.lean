import RelEngine.Proofs.Checked
import RelEngine.Proofs.Tree.Binding

/-!
Arithmetic on integers. A tree of integer and boolean constants has its exact value as far as every step on the
way stays within 32 bits and divides by no zero. Otherwise it fails at the first step that does not.

The main statement is `IntTree.eval_exact`.
-/
namespace RelEngine

namespace ArithOp

/-- The mathematical result. Division rounds toward zero. -/
def exact : ArithOp → Int → Int → Int
  | .plus, m, n => m + n
  | .minus, m, n => m - n
  | .times, m, n => m * n
  | .divide, m, n => m.tdiv n

/-- The operator as it stands in statements. -/
def operator : ArithOp → Operator
  | .plus => .plus
  | .minus => .minus
  | .times => .times
  | .divide => .divide

theorem bind_operator (op : ArithOp) (operands : List (Checked Expr)) :
    op.operator.bind operands = op.operator.foldOperands (.arith op) operands := by
  cases op with
  | plus => rfl
  | minus => rfl
  | times => rfl
  | divide => rfl

theorem onInts_eq (op : ArithOp) (m n : Int) :
    op.onInts m n = if op = .divide ∧ n = 0 then .error .divisionByZero else .ok (op.exact m n) := by
  cases op with
  | plus => rfl
  | minus => rfl
  | times => rfl
  | divide => simp [onInts, exact]

end ArithOp

/-! ## Steps -/

/-- One operator applied to the exact values of two operands. What an error tells of the operands is their
types. -/
structure ArithStep where
  op : ArithOp
  left : Int
  right : Int
  leftType : DataType
  rightType : DataType

namespace ArithStep

def result (s : ArithStep) : Int := s.op.exact s.left s.right

/-- The divisor is not zero, and the result is a 32-bit integer. -/
def Fits (s : ArithStep) : Prop :=
  (s.op = .divide → s.right ≠ 0) ∧ -2147483648 ≤ s.result ∧ s.result ≤ 2147483647

instance (s : ArithStep) : Decidable s.Fits := inferInstanceAs (Decidable (_ ∧ _))

/-- The error of a step that does not fit. -/
def fault (s : ArithStep) : Error :=
  if s.op = .divide ∧ s.right = 0 then .divisionByZero
  else .invalidOperation s.op s.leftType s.rightType

def check (s : ArithStep) : Checked Unit := if s.Fits then .ok () else .error s.fault

theorem check_eq_ok {s : ArithStep} : s.check = .ok () ↔ s.Fits := by
  rw [check]
  split
  · next fits => exact iff_of_true rfl fits
  · next misfit => exact iff_of_false nofun misfit

theorem forM_check_eq_ok {steps : List ArithStep} : steps.forM check = .ok () ↔ ∀ s ∈ steps, s.Fits := by
  constructor
  · intro h s mem
    exact check_eq_ok.1 (Checked.forM_eq_ok h s mem)
  · intro fits
    exact Checked.forM_of_forall fun s mem => check_eq_ok.2 (fits s mem)

theorem exists_first_misfit {steps : List ArithStep} (h : ¬ ∀ s ∈ steps, s.Fits) :
    ∃ before s after, steps = before ++ s :: after ∧ (∀ b ∈ before, b.Fits) ∧ ¬ s.Fits := by
  induction steps with
  | nil => exact absurd (List.forall_mem_nil _) h
  | cons s steps ih =>
    by_cases fits : s.Fits
    · have later : ¬ ∀ s ∈ steps, s.Fits := fun all => h (List.forall_mem_cons.2 ⟨fits, all⟩)
      obtain ⟨before, s', after, rfl, passed, misfit⟩ := ih later
      exact ⟨s :: before, s', after, rfl, List.forall_mem_cons.2 ⟨fits, passed⟩, misfit⟩
    · exact ⟨[], s, steps, rfl, List.forall_mem_nil _, fits⟩

theorem toInt_of_fits {s : ArithStep} (fits : s.Fits) : (Int32.ofInt s.result).toInt = s.result := by
  obtain ⟨-, least, greatest⟩ := fits
  exact Int32.toInt_ofInt_of_le (by omega) (by omega)

end ArithStep

/-- On integers and booleans an operator takes one step. -/
theorem Scalar.arith_of_whole {op : ArithOp} {a b : Scalar} {m n : Int} (left : a.whole? = some m)
    (right : b.whole? = some n) : a.arith op b = do
      ArithStep.check ⟨op, m, n, a.type, b.type⟩
      return .int (Int32.ofInt (op.exact m n)) := by
  unfold arith
  split
  · cases left
  · simp only [left, right, ArithOp.onInts_eq]
    by_cases zero : op = .divide ∧ n = 0
    · have misfit : ¬ ArithStep.Fits ⟨op, m, n, a.type, b.type⟩ := fun fits => fits.1 zero.1 zero.2
      rw [if_pos zero, ArithStep.check, if_neg misfit, ArithStep.fault, if_pos zero]
      rfl
    · have fits : ArithStep.Fits ⟨op, m, n, a.type, b.type⟩ ↔
          Int32.minValue.toInt ≤ op.exact m n ∧ op.exact m n ≤ Int32.maxValue.toInt :=
        and_iff_right fun divides => fun isZero => zero ⟨divides, isZero⟩
      rw [if_neg zero, Checked.ok_bind, int32?, ArithStep.check, ArithStep.fault, if_neg zero]
      by_cases inRange : ArithStep.Fits ⟨op, m, n, a.type, b.type⟩
      · rw [if_pos inRange, if_pos (fits.1 inRange)]
        rfl
      · rw [if_neg inRange, if_neg (mt fits.2 inRange)]
        rfl

/-- The expression takes these steps and ends with the scalar, or at the first step that does not fit. After
steps that all fit the scalar is the exact integer. -/
structure Expr.Computes (e : Expr) (steps : List ArithStep) (a : Scalar) (n : Int) : Prop where
  eval : ∀ stores row, e.eval stores row = do
    steps.forM ArithStep.check
    return some a
  exact : (∀ s ∈ steps, s.Fits) → a.whole? = some n

namespace Expr.Computes

variable {l r e : Expr} {before after steps : List ArithStep} {a b : Scalar} {m n : Int}

theorem const (isWhole : a.whole? = some n) : (Expr.const (some a)).Computes [] a n where
  eval _ _ := rfl
  exact _ := isWhole

/-- The left operand is evaluated first, then the right one, and then the operator takes a step of its own. -/
theorem arith (op : ArithOp) (left : l.Computes before a m) (right : r.Computes after b n) :
    (Expr.arith op l r).Computes (before ++ after ++ [⟨op, m, n, a.type, b.type⟩])
      (.int (Int32.ofInt (op.exact m n))) (op.exact m n) where
  eval stores row := by
    rw [Expr.eval, left.eval, right.eval]
    simp only [List.forM_eq_forM, List.forM_append, List.forM_cons, List.forM_nil, bind_assoc]
    cases first : forM before ArithStep.check with
    | error x => rfl
    | ok =>
      cases second : forM after ArithStep.check with
      | error x => rfl
      | ok =>
        have isLeft := left.exact (ArithStep.forM_check_eq_ok.1 first)
        have isRight := right.exact (ArithStep.forM_check_eq_ok.1 second)
        simp only [Checked.ok_bind, pure_bind, Value.arith, Scalar.arith_of_whole isLeft isRight, bind_assoc]
  exact fits := by
    have last := ArithStep.toInt_of_fits (fits _ (List.mem_append_right _ List.mem_cons_self))
    exact congrArg some last

/-- How an evaluation ends. -/
theorem eval_eq_ok (h : e.Computes steps a n) {stores : Stores} {row : String → Checked Value} {v : Value} :
    e.eval stores row = .ok v ↔ (∀ s ∈ steps, s.Fits) ∧ v = some a := by
  rw [h.eval, Checked.bind_eq_ok, ← ArithStep.forM_check_eq_ok]
  constructor
  · rintro ⟨⟨⟩, passed, eq⟩
    exact ⟨passed, (Except.ok.inj eq).symm⟩
  · rintro ⟨passed, rfl⟩
    exact ⟨(), passed, rfl⟩

theorem eval_eq_error {s : ArithStep} (h : e.Computes (before ++ s :: after) a n)
    (fits : ∀ s ∈ before, s.Fits) (misfit : ¬ s.Fits) (stores : Stores) (row : String → Checked Value) :
    e.eval stores row = .error s.fault := by
  have bad : s.check = .error s.fault := if_neg misfit
  rw [h.eval, Checked.forM_of_first_error (fun s mem => ArithStep.check_eq_ok.2 (fits s mem)) bad,
    Checked.error_bind]

end Expr.Computes

/-! ## Trees -/

/-- A tree of constants that are integers or booleans. -/
inductive IntTree where
  | bool (b : Bool)
  | int (n : Int32)
  /-- An operator with two or more operands. -/
  | fold (op : ArithOp) (first second : IntTree) (rest : List IntTree)
  | negate (operand : IntTree)

namespace IntTree

mutual

/-- The tree as it stands in statements. -/
def tree : IntTree → Tree
  | .bool b => .const (some (.bool b))
  | .int n => .const (some (.int n))
  | .fold op first second rest => .apply op.operator (first.tree :: second.tree :: trees rest)
  | .negate operand => .negate operand.tree

def trees : List IntTree → List Tree
  | [] => []
  | t :: ts => t.tree :: trees ts

end

mutual

/-- The mathematical value. Operands are taken from left to right. -/
def exact : IntTree → Int
  | .bool b => b.toInt
  | .int n => n.toInt
  | .fold op first second rest => exactFold op (op.exact first.exact second.exact) rest
  | .negate operand => -operand.exact

def exactFold (op : ArithOp) (total : Int) : List IntTree → Int
  | [] => total
  | t :: ts => exactFold op (op.exact total t.exact) ts

end

/-- Only a lone constant can be a boolean. -/
def type : IntTree → DataType
  | .bool _ => .bool
  | _ => .int

mutual

/-- The steps to the value, in the order of evaluation. Unary minus takes the operand from zero. -/
def steps : IntTree → List ArithStep
  | .bool _ => []
  | .int _ => []
  | .fold op first second rest =>
    first.steps ++ second.steps ++ ⟨op, first.exact, second.exact, first.type, second.type⟩ ::
      stepsFold op (op.exact first.exact second.exact) rest
  | .negate operand => operand.steps ++ [⟨.minus, 0, operand.exact, .int, operand.type⟩]

def stepsFold (op : ArithOp) (total : Int) : List IntTree → List ArithStep
  | [] => []
  | t :: ts =>
    t.steps ++ ⟨op, total, t.exact, .int, t.type⟩ :: stepsFold op (op.exact total t.exact) ts

end

/-! ### The bound tree -/

mutual

def expr : IntTree → Expr
  | .bool b => .const (some (.bool b))
  | .int n => .const (some (.int n))
  | .fold op first second rest => (second.expr :: exprs rest).foldl (.arith op) first.expr
  | .negate operand => .arith .minus (.const (some (.int 0))) operand.expr

def exprs : List IntTree → List Expr
  | [] => []
  | t :: ts => t.expr :: exprs ts

end

mutual

theorem bind_tree (check : FieldCheck) : (t : IntTree) → t.tree.bind check = .ok t.expr
  | .bool b => rfl
  | .int n => rfl
  | .fold op first second rest => by
    rw [tree, Tree.bind, ArithOp.bind_operator, Tree.bindEach, Tree.bindEach, bind_tree check first,
      bind_tree check second, bindEach_trees check rest]
    exact Operator.foldOperands_ok _ _ first.expr second.expr (exprs rest)
  | .negate operand => by
    rw [tree, Tree.bind, bind_tree check operand]
    rfl

theorem bindEach_trees (check : FieldCheck) : (ts : List IntTree) →
    Tree.bindEach check (trees ts) = (exprs ts).map .ok
  | [] => rfl
  | t :: ts => by
    rw [trees, Tree.bindEach, bind_tree check t, bindEach_trees check ts]
    rfl

end

/-- The value of the bound tree, if it has one. -/
def scalar : IntTree → Scalar
  | .bool b => .bool b
  | .int n => .int n
  | t => .int (Int32.ofInt t.exact)

theorem type_scalar (t : IntTree) : t.scalar.type = t.type := by
  cases t with
  | bool b => rfl
  | int n => rfl
  | fold op first second rest => rfl
  | negate operand => rfl

mutual

theorem computes : (t : IntTree) → t.expr.Computes t.steps t.scalar t.exact
  | .bool b => .const rfl
  | .int n => .const rfl
  | .fold op first second rest => by
    have start := (computes first).arith op (computes second)
    rw [type_scalar, type_scalar] at start
    have whole := computes_fold op rest start
    rw [List.append_assoc] at whole
    exact whole
  | .negate operand => by
    have zero : (Expr.const (some (.int 0))).Computes [] (.int 0) 0 := .const rfl
    have minus := zero.arith .minus (computes operand)
    rw [type_scalar, ArithOp.exact, Int.zero_sub] at minus
    exact minus

/-- A fold that has come to a total takes the steps of the other operands. -/
theorem computes_fold (op : ArithOp) : (ts : List IntTree) → {e : Expr} → {before : List ArithStep} →
    {total : Int} → e.Computes before (.int (Int32.ofInt total)) total →
    ((exprs ts).foldl (.arith op) e).Computes (before ++ stepsFold op total ts)
      (.int (Int32.ofInt (exactFold op total ts))) (exactFold op total ts)
  | [], e, before, total, h => by
    rw [stepsFold, List.append_nil]
    exact h
  | t :: ts, e, before, total, h => by
    have next := h.arith op (computes t)
    rw [type_scalar] at next
    have whole := computes_fold op ts next
    rw [List.append_assoc, List.append_assoc] at whole
    exact whole

end

theorem scalar_exact {t : IntTree} (fits : ∀ s ∈ t.steps, s.Fits) :
    t.tree = .const (some t.scalar) ∨ ∃ n : Int32, t.scalar = .int n ∧ n.toInt = t.exact := by
  have isWhole := (computes t).exact fits
  cases t with
  | bool b => exact .inl rfl
  | int n => exact .inl rfl
  | fold op first second rest => exact .inr ⟨_, rfl, Option.some.inj isWhole⟩
  | negate operand => exact .inr ⟨_, rfl, Option.some.inj isWhole⟩

/-- A tree of integer constants can be bound wherever it stands. On every row it has a value exactly if all of its
steps fit, and then that is the mathematical one; only a lone constant stays as it is. Otherwise the evaluation
fails, and with the error of the first step from the left that does not fit. -/
theorem eval_exact (t : IntTree) (check : FieldCheck) : ∃ e, t.tree.bind check = .ok e ∧ ∀ stores row,
    ((∃ v, e.eval stores row = .ok v) ↔ ∀ s ∈ t.steps, s.Fits) ∧
    (∀ v, e.eval stores row = .ok v →
      t.tree = .const v ∨ ∃ n : Int32, v = some (.int n) ∧ n.toInt = t.exact) ∧
    ((¬ ∀ s ∈ t.steps, s.Fits) → ∃ before s after, t.steps = before ++ s :: after ∧
      (∀ b ∈ before, b.Fits) ∧ ¬ s.Fits ∧ e.eval stores row = .error s.fault) := by
  have runs := computes t
  refine ⟨t.expr, bind_tree check t, fun stores row => ⟨?_, ?_, ?_⟩⟩
  · constructor
    · rintro ⟨v, isValue⟩
      exact (runs.eval_eq_ok.1 isValue).1
    · intro fits
      exact ⟨_, runs.eval_eq_ok.2 ⟨fits, rfl⟩⟩
  · intro v isValue
    obtain ⟨fits, rfl⟩ := runs.eval_eq_ok.1 isValue
    rcases scalar_exact fits with isConst | ⟨n, isInt, isExact⟩
    · exact .inl isConst
    · exact .inr ⟨n, congrArg some isInt, isExact⟩
  · intro misfits
    obtain ⟨before, s, after, eq, fits, misfit⟩ := ArithStep.exists_first_misfit misfits
    rw [eq] at runs
    exact ⟨before, s, after, eq, fits, misfit, runs.eval_eq_error fits misfit stores row⟩

/-- Of an overflow and a division by zero after it, the overflow is reported. -/
example : (fold .divide (fold .plus (.int Int32.maxValue) (.bool true) []) (.int 0) []).expr.eval [] noFields =
    .error (.invalidOperation .plus .int .bool) := by
  decide +kernel

end IntTree

end RelEngine
