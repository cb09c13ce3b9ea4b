import RelEngine.Plan.Eval
import RelEngine.Proofs.Value.Order
import RelEngine.Tree.Value

/-!
A bound tree evaluates to the value of the tree.

Binding goes through few operators, and folds are evaluated in another order than the values of a tree are
taken. So of two errors either may be met first, and the statements are about values alone.
-/
namespace RelEngine

/-! ## Comparisons by the two primitive ones -/

namespace Operator

theorem compareValues_eq (v w : Value) : compareValues .eq v w = Value.relate .eq v w := by
  cases v with
  | none => rfl
  | some x =>
    cases w with
    | none => rfl
    | some y => simp only [compareValues, ordered?, Value.relate, Comparison.holds_eq]

theorem compareValues_lt (v w : Value) : compareValues .lt v w = Value.relate .lt v w := by
  cases v with
  | none => rfl
  | some x =>
    cases w with
    | none => rfl
    | some y => simp only [compareValues, ordered?, Value.relate, Comparison.holds_eq]

theorem compareValues_notEq (v w : Value) :
    compareValues .notEq v w = do return Value.not (← Value.relate .eq v w) := by
  cases v with
  | none => rfl
  | some x =>
    cases w with
    | none => rfl
    | some y =>
      simp only [compareValues, ordered?, Value.relate, Comparison.holds_eq]
      cases x.order? y with
      | error e => rfl
      | ok o => rfl

theorem compareValues_le (v w : Value) :
    compareValues .le v w = do
      return Value.connect .or (← Value.relate .lt v w) (← Value.relate .eq v w) := by
  cases v with
  | none => cases w <;> rfl
  | some x =>
    cases w with
    | none => rfl
    | some y =>
      simp only [compareValues, ordered?, Value.relate, Comparison.holds_eq]
      cases x.order? y with
      | error e => rfl
      | ok o => exact congrArg Except.ok (Value.connect_or_ofBool _ _).symm

/-- With its operands exchanged, less is greater. -/
theorem toOption_relate_lt_swap (v w : Value) :
    (Value.relate .lt w v).toOption = (compareValues .gt v w).toOption := by
  cases v with
  | none => cases w <;> rfl
  | some x =>
    cases w with
    | none => rfl
    | some y =>
      simp only [compareValues, ordered?, Value.relate, Comparison.holds_eq, Checked.toOption_bind,
        Scalar.order?_swap x y]
      cases x.order? y with
      | error e => rfl
      | ok o => rcases o with _ | _ | _ | _ <;> rfl

theorem toOption_compareValues_ge (v w : Value) :
    (compareValues .ge v w).toOption = (do
      return Value.connect .or (← Value.relate .lt w v) (← Value.relate .eq v w) :
      Checked Value).toOption := by
  simp only [Checked.toOption_bind, toOption_relate_lt_swap]
  cases v with
  | none => cases w <;> rfl
  | some x =>
    cases w with
    | none => rfl
    | some y =>
      simp only [compareValues, ordered?, Value.relate, Comparison.holds_eq]
      cases x.order? y with
      | error e => rfl
      | ok o => exact congrArg some (Value.connect_or_ofBool _ _).symm

theorem compareValues_is (v w : Value) : compareValues .is v w = .ok (Value.is v w) := by
  change Except.ok (Value.ofBool (Value.identical v w == true)) = _
  rw [beq_true]
  rfl

theorem compareValues_isNot (v w : Value) :
    compareValues .isNot v w = .ok (Value.not (Value.is v w)) := by
  change Except.ok (Value.ofBool (Value.identical v w == false)) = _
  rw [beq_false]
  rfl

/-! ## The expression for an operator -/

section

variable {op : Operator} {operands : List (Checked Expr)} {e : Expr} {stores : Stores}
  {record : String → Checked Value}

theorem foldOperands_eq_ok {node : Expr → Expr → Expr}
    (h : op.foldOperands node operands = .ok e) :
    ∃ first second rest, operands = (first :: second :: rest).map .ok ∧
      e = (second :: rest).foldl node first := by
  have folded : ∀ (l : List (Checked Expr)) (a : Expr),
      l.foldlM (fun left right => return node left (← right)) a = .ok e →
        ∃ es : List Expr, l = es.map .ok ∧ e = es.foldl node a := by
    intro l
    induction l with
    | nil => exact fun a h => ⟨[], rfl, (Except.ok.inj h).symm⟩
    | cons r l ih =>
      intro a h
      obtain ⟨b, hb, afterFirst⟩ := Checked.bind_eq_ok.1 h
      obtain ⟨x, rfl, eq⟩ := Checked.bind_eq_ok.1 hb
      cases eq
      obtain ⟨es, rfl, rfl⟩ := ih _ afterFirst
      exact ⟨x :: es, rfl, rfl⟩
  rcases operands with _ | ⟨first, _ | ⟨second, rest⟩⟩
  · exact nomatch h
  · exact nomatch h
  · obtain ⟨x, rfl, h⟩ := Checked.bind_eq_ok.1 h
    obtain ⟨es, eq, rfl⟩ := folded _ x h
    cases es with
    | nil => exact nomatch eq
    | cons y es =>
      rw [eq]
      exact ⟨x, y, es, rfl, rfl⟩

theorem pairOperands_eq_ok {node : Checked Expr → Checked Expr → Checked Expr}
    (h : op.pairOperands node operands = .ok e) :
    ∃ a b, operands = [a, b] ∧ node a b = .ok e := by
  rcases operands with _ | ⟨a, _ | ⟨b, _ | ⟨c, rest⟩⟩⟩
  · exact nomatch h
  · exact nomatch h
  · exact ⟨a, b, rfl, h⟩
  · rw [pairOperands] at h
    · split at h
      · exact nomatch h
      · exact nomatch h
    · simp

/-- A fold evaluates each operand when it is needed, and not all of them first. -/
theorem toOption_eval_foldl {node : Expr → Expr → Expr} {step : Value → Value → Checked Value}
    (evalNode : ∀ l r, (node l r).eval stores record = do
      step (← l.eval stores record) (← r.eval stores record))
    (es : List Expr) (a : Expr) :
    ((es.foldl node a).eval stores record).toOption = (do
      let v ← a.eval stores record
      (← es.mapM (·.eval stores record)).foldlM step v : Checked Value).toOption := by
  induction es generalizing a with
  | nil => simp
  | cons e es ih =>
    rw [List.foldl_cons, ih, evalNode]
    simp only [List.mapM_cons, bind_assoc, pure_bind, Checked.toOption_bind, List.foldlM_cons]
    congr 1
    funext v
    congr 1
    funext w
    exact Option.bind_comm _ _

theorem toOption_eval_fold {node : Expr → Expr → Expr} {step : Value → Value → Checked Value}
    (steps : op.step? = some step)
    (evalNode : ∀ l r, (node l r).eval stores record = do
      step (← l.eval stores record) (← r.eval stores record))
    (first second : Expr) (rest : List Expr) :
    (((second :: rest).foldl node first).eval stores record).toOption = (do
      op.apply (← (first :: second :: rest).mapM (·.eval stores record)) :
      Checked Value).toOption := by
  rw [toOption_eval_foldl evalNode]
  simp only [List.mapM_cons, bind_assoc, pure_bind, apply, steps]

/-- An expression stands for an operator on operands if it has the operator's value on theirs. -/
def Means (op : Operator) (operands : List (Checked Expr)) (e : Expr) : Prop :=
  ∃ es : List Expr, operands = es.map .ok ∧ ∀ stores record,
    (e.eval stores record).toOption = (do
      op.apply (← es.mapM (·.eval stores record)) : Checked Value).toOption

theorem means_of_fold {node : Expr → Expr → Expr} {step : Value → Value → Checked Value}
    (h : op.foldOperands node operands = .ok e) (steps : op.step? = some step)
    (evalNode : ∀ stores record l r, (node l r).eval stores record = do
      step (← l.eval stores record) (← r.eval stores record)) : op.Means operands e := by
  obtain ⟨x, y, es, rfl, rfl⟩ := foldOperands_eq_ok h
  exact ⟨x :: y :: es, rfl, fun stores record =>
    toOption_eval_fold steps (evalNode stores record) x y es⟩

theorem means_of_compare {x y : Expr} (noStep : op.step? = none)
    (h : ∀ stores record, (e.eval stores record).toOption =
      (x.eval stores record).toOption.bind fun v =>
        (y.eval stores record).toOption.bind fun w => (op.compareValues v w).toOption) :
    op.Means [.ok x, .ok y] e := by
  refine ⟨[x, y], rfl, fun stores record => ?_⟩
  rw [h]
  simp only [List.mapM_cons, List.mapM_nil, bind_assoc, pure_bind, apply, noStep,
    Checked.toOption_bind]

/-- An operator that takes its left operand first. -/
theorem means_of_pair {node : Expr → Expr → Expr}
    (h : op.pairOperands (fun a b => return node (← a) (← b)) operands = .ok e)
    (noStep : op.step? = none)
    (evalNode : ∀ x y stores record, ((node x y).eval stores record).toOption =
      (x.eval stores record).toOption.bind fun v =>
        (y.eval stores record).toOption.bind fun w => (op.compareValues v w).toOption) :
    op.Means operands e := by
  obtain ⟨a, b, rfl, bound⟩ := pairOperands_eq_ok h
  obtain ⟨x, rfl, afterLeft⟩ := Checked.bind_eq_ok.1 bound
  obtain ⟨y, rfl, eq⟩ := Checked.bind_eq_ok.1 afterLeft
  cases eq
  exact means_of_compare noStep (evalNode x y)

/-- An operator that takes its right operand first. -/
theorem means_of_swapped {node : Expr → Expr → Expr}
    (h : op.pairOperands (fun a b => do
      let b ← b
      let a ← a
      return node a b) operands = .ok e)
    (noStep : op.step? = none)
    (evalNode : ∀ x y stores record, ((node x y).eval stores record).toOption =
      (x.eval stores record).toOption.bind fun v =>
        (y.eval stores record).toOption.bind fun w => (op.compareValues v w).toOption) :
    op.Means operands e := by
  obtain ⟨a, b, rfl, bound⟩ := pairOperands_eq_ok h
  obtain ⟨y, rfl, afterRight⟩ := Checked.bind_eq_ok.1 bound
  obtain ⟨x, rfl, eq⟩ := Checked.bind_eq_ok.1 afterRight
  cases eq
  exact means_of_compare noStep (evalNode x y)

theorem bind_means (h : op.bind operands = .ok e) : op.Means operands e := by
  cases op with
  | and => exact means_of_fold h rfl fun _ _ _ _ => rfl
  | or => exact means_of_fold h rfl fun _ _ _ _ => rfl
  | xor => exact means_of_fold h rfl fun _ _ _ _ => rfl
  | plus => exact means_of_fold h rfl fun _ _ _ _ => rfl
  | minus => exact means_of_fold h rfl fun _ _ _ _ => rfl
  | times => exact means_of_fold h rfl fun _ _ _ _ => rfl
  | divide => exact means_of_fold h rfl fun _ _ _ _ => rfl
  | eq =>
    refine means_of_pair h rfl fun x y stores record => ?_
    simp only [Expr.eval, Checked.toOption_bind, compareValues_eq]
  | notEq =>
    refine means_of_pair h rfl fun x y stores record => ?_
    simp only [Expr.eval, Checked.toOption_bind, compareValues_notEq, Option.bind_assoc]
  | lt =>
    refine means_of_pair h rfl fun x y stores record => ?_
    simp only [Expr.eval, Checked.toOption_bind, compareValues_lt]
  | gt =>
    refine means_of_swapped h rfl fun x y stores record => ?_
    simp only [Expr.eval, Checked.toOption_bind, toOption_relate_lt_swap]
    exact Option.bind_comm _ _
  | le =>
    refine means_of_pair h rfl fun x y stores record => ?_
    simp only [Expr.eval, Checked.toOption_bind, compareValues_le]
    cases (x.eval stores record).toOption <;> cases (y.eval stores record).toOption <;> simp
  | ge =>
    refine means_of_swapped h rfl fun x y stores record => ?_
    simp only [Expr.eval, Checked.toOption_bind, toOption_compareValues_ge]
    cases (x.eval stores record).toOption <;> cases (y.eval stores record).toOption <;> simp
  | is =>
    refine means_of_pair h rfl fun x y stores record => ?_
    simp only [Expr.eval, Checked.toOption_bind, compareValues_is]
    rfl
  | isNot =>
    refine means_of_pair h rfl fun x y stores record => ?_
    simp only [Expr.eval, Checked.toOption_bind, compareValues_isNot, Option.bind_assoc]
    rfl

/-- How many operands an operator can have. -/
def Takes (op : Operator) (count : Nat) : Prop := 2 ≤ count ∧ (op.isComparison = true → count = 2)

/-- An operator has values only on as many operands as it can be bound to. -/
theorem takes_of_apply {values : List Value} {v : Value} (h : op.apply values = .ok v) :
    op.Takes values.length := by
  unfold apply at h
  split at h
  · next folds =>
    constructor
    · exact Nat.le_add_left 2 _
    · intro compares
      cases op <;> simp [step?, isComparison] at folds compares
  · exact ⟨Nat.le_refl 2, fun _ => rfl⟩
  · cases h
  · cases h
  · cases h

/-- Operands that are all bound are folded from the left. -/
theorem foldOperands_ok (op : Operator) (node : Expr → Expr → Expr) (first second : Expr) (rest : List Expr) :
    op.foldOperands node ((first :: second :: rest).map .ok) = .ok ((second :: rest).foldl node first) := by
  have folded : ∀ (es : List Expr) (a : Expr),
      (es.map .ok).foldlM (fun left right => return node left (← right)) a =
        (.ok (es.foldl node a) : Checked Expr) := by
    intro es
    induction es with
    | nil => exact fun a => rfl
    | cons x es ih => exact fun a => ih (node a x)
  exact folded (second :: rest) first

theorem foldOperands_of_length (op : Operator) (node : Expr → Expr → Expr) {es : List Expr}
    (two : 2 ≤ es.length) : ∃ e, op.foldOperands node (es.map .ok) = .ok e := by
  match es, two with
  | first :: second :: rest, _ => exact ⟨_, foldOperands_ok op node first second rest⟩

theorem bind_of_takes {es : List Expr} (takes : op.Takes es.length) :
    ∃ e, op.bind (es.map .ok) = .ok e := by
  have pair : op.isComparison = true → ∃ x y, es = [x, y] := fun compares =>
    List.length_eq_two.1 (takes.2 compares)
  cases op with
  | and | or | xor | plus | minus | times | divide => exact foldOperands_of_length _ _ takes.1
  | eq | notEq | lt | le | gt | ge | is | isNot =>
    obtain ⟨x, y, rfl⟩ := pair rfl
    exact ⟨_, rfl⟩

end

end Operator

/-! ## Trees -/

namespace Tree

mutual

/-- The field names in a tree. -/
def names : Tree → List String
  | .const _ => []
  | .field name => [name]
  | .apply _ operands => namesOfAll operands
  | .negate operand => operand.names
  | .not operand => operand.names

def namesOfAll : List Tree → List String
  | [] => []
  | t :: ts => t.names ++ namesOfAll ts

end

variable {check : FieldCheck} {stores : Stores} {record row : String → Checked Value}

mutual

/-- On rows that agree on the names of a tree, the bound tree has the value of the tree. -/
theorem toOption_eval_bind : (tree : Tree) → {e : Expr} → tree.bind check = .ok e →
    (∀ name ∈ tree.names, (record name).toOption = (row name).toOption) →
    (e.eval stores record).toOption = (tree.value row).toOption
  | .const v, e, h, _ => by
    cases h
    rfl
  | .field name, e, h, agree => by
    obtain ⟨_, _, eq⟩ := Checked.bind_eq_ok.1 h
    cases eq
    exact agree name (List.mem_singleton_self name)
  | .apply op operands, e, h, agree => by
    obtain ⟨es, bound, means⟩ := Operator.bind_means h
    rw [means, value, Checked.toOption_bind, Checked.toOption_bind,
      toOption_evalEach_bindEach operands bound agree]
  | .negate operand, e, h, agree => by
    obtain ⟨x, bound, eq⟩ := Checked.bind_eq_ok.1 h
    cases eq
    have ih := toOption_eval_bind operand bound agree
    simp only [Expr.eval, value, Checked.toOption_bind, ih, Checked.toOption_ok,
      Option.bind_some]
  | .not operand, e, h, agree => by
    obtain ⟨x, bound, eq⟩ := Checked.bind_eq_ok.1 h
    cases eq
    have ih := toOption_eval_bind operand bound agree
    simp only [Expr.eval, value, Checked.toOption_bind, ih]

theorem toOption_evalEach_bindEach : (trees : List Tree) → {es : List Expr} →
    bindEach check trees = es.map .ok →
    (∀ name ∈ namesOfAll trees, (record name).toOption = (row name).toOption) →
    (es.mapM (·.eval stores record) : Checked (List Value)).toOption = (values row trees).toOption
  | [], es, h, _ => by
    cases es with
    | nil => rfl
    | cons x es => exact nomatch h
  | t :: ts, es, h, agree => by
    cases es with
    | nil => exact nomatch h
    | cons x es =>
      rw [bindEach, List.map_cons, List.cons.injEq] at h
      have first := toOption_eval_bind t h.1 fun name mem => agree name (List.mem_append_left _ mem)
      have rest := toOption_evalEach_bindEach ts h.2 fun name mem =>
        agree name (List.mem_append_right _ mem)
      simp only [List.mapM_cons, values, Checked.toOption_bind, first, rest]

end

mutual

/-- A tree that has a value on a row can be bound to the fields of that row. -/
theorem bind_of_value (known : ∀ name v, row name = .ok v → check name = .ok ()) :
    (tree : Tree) → {v : Value} → tree.value row = .ok v → ∃ e, tree.bind check = .ok e
  | .const v, _, _ => ⟨.const v, rfl⟩
  | .field name, v, h => ⟨.field name, by rw [bind, known name v h]; rfl⟩
  | .apply op operands, v, h => by
    obtain ⟨vs, evaluated, applied⟩ := Checked.bind_eq_ok.1 h
    obtain ⟨es, bound, length⟩ := bindEach_of_values known operands evaluated
    have takes := Operator.takes_of_apply applied
    rw [← length] at takes
    obtain ⟨e, isBound⟩ := Operator.bind_of_takes takes
    exact ⟨e, by rw [bind, bound, isBound]⟩
  | .negate operand, v, h => by
    obtain ⟨_, evaluated, _⟩ := Checked.bind_eq_ok.1 h
    obtain ⟨x, bound⟩ := bind_of_value known operand evaluated
    exact ⟨_, by rw [bind, bound]; rfl⟩
  | .not operand, v, h => by
    obtain ⟨_, evaluated, _⟩ := Checked.bind_eq_ok.1 h
    obtain ⟨x, bound⟩ := bind_of_value known operand evaluated
    exact ⟨_, by rw [bind, bound]; rfl⟩

theorem bindEach_of_values (known : ∀ name v, row name = .ok v → check name = .ok ()) :
    (trees : List Tree) → {vs : List Value} → values row trees = .ok vs →
      ∃ es : List Expr, bindEach check trees = es.map .ok ∧ es.length = vs.length
  | [], _, h => by
    cases h
    exact ⟨[], rfl, rfl⟩
  | t :: ts, _, h => by
    obtain ⟨v, first, h⟩ := Checked.bind_eq_ok.1 h
    obtain ⟨vs, rest, eq⟩ := Checked.bind_eq_ok.1 h
    cases eq
    obtain ⟨x, bound⟩ := bind_of_value known t first
    obtain ⟨es, boundRest, length⟩ := bindEach_of_values known ts rest
    exact ⟨x :: es, by rw [bindEach, bound, boundRest]; rfl, congrArg Nat.succ length⟩

end

end Tree

end RelEngine
