import RelEngine.Proofs.Tree.Binding

/-!
What binding builds. The expressions of statements ask for no plan, so they see nothing of the tables but
the row that they are evaluated on.
-/
namespace RelEngine

/-- The expression is made of constants, operators and fields with these names. -/
inductive Expr.OnRow (named : String → Prop) : Expr → Prop where
  | const (value : Value) : OnRow named (.const value)
  | field {name : String} (known : named name) : OnRow named (.field name)
  | compare (op : Comparison) {l r : Expr} (left : OnRow named l) (right : OnRow named r) :
    OnRow named (.compare op l r)
  | connect (op : Connective) {l r : Expr} (left : OnRow named l) (right : OnRow named r) :
    OnRow named (.connect op l r)
  | arith (op : ArithOp) {l r : Expr} (left : OnRow named l) (right : OnRow named r) :
    OnRow named (.arith op l r)
  | not {x : Expr} (operand : OnRow named x) : OnRow named (.not x)
  | is {l r : Expr} (left : OnRow named l) (right : OnRow named r) : OnRow named (.is l r)

theorem Expr.OnRow.mono {named named' : String → Prop} (imp : ∀ name, named name → named' name)
    {e : Expr} (h : e.OnRow named) : e.OnRow named' := by
  induction h with
  | const v => exact .const v
  | field known => exact .field (imp _ known)
  | compare op _ _ left right => exact .compare op left right
  | connect op _ _ left right => exact .connect op left right
  | arith op _ _ left right => exact .arith op left right
  | not _ operand => exact .not operand
  | is _ _ left right => exact .is left right

namespace Operator

variable {op : Operator} {operands : List (Checked Expr)} {e : Expr} {named : String → Prop}

theorem onRow_of_fold {node : Expr → Expr → Expr} (h : op.foldOperands node operands = .ok e)
    (nodes : ∀ l r : Expr, l.OnRow named → r.OnRow named → (node l r).OnRow named)
    (each : ∀ x : Expr, .ok x ∈ operands → x.OnRow named) : e.OnRow named := by
  obtain ⟨first, second, rest, rfl, rfl⟩ := foldOperands_eq_ok h
  have folded : ∀ (es : List Expr) (start : Expr), start.OnRow named →
      (∀ x ∈ es, x.OnRow named) → (es.foldl node start).OnRow named := by
    intro es
    induction es with
    | nil => exact fun _ isOnRow _ => isOnRow
    | cons x es ih =>
      intro start isOnRow each
      apply ih
      · exact nodes _ _ isOnRow (each x List.mem_cons_self)
      · exact fun x mem => each x (List.mem_cons_of_mem _ mem)
  apply folded
  · exact each first List.mem_cons_self
  · exact fun x mem => each x (List.mem_cons_of_mem _ (List.mem_map_of_mem mem))

theorem onRow_of_pair {node : Checked Expr → Checked Expr → Checked Expr}
    (h : op.pairOperands node operands = .ok e)
    (nodes : ∀ l r, node l r = .ok e → ∃ x y, l = .ok x ∧ r = .ok y ∧
      (x.OnRow named → y.OnRow named → e.OnRow named))
    (each : ∀ x : Expr, .ok x ∈ operands → x.OnRow named) : e.OnRow named := by
  obtain ⟨l, r, rfl, bound⟩ := pairOperands_eq_ok h
  obtain ⟨x, y, rfl, rfl, isOnRow⟩ := nodes l r bound
  exact isOnRow (each x List.mem_cons_self) (each y (List.mem_cons_of_mem _ List.mem_cons_self))

theorem onRow_bind (h : op.bind operands = .ok e)
    (each : ∀ x : Expr, .ok x ∈ operands → x.OnRow named) : e.OnRow named := by
  have left : ∀ {l r : Checked Expr} {node : Expr → Expr → Expr},
      (do return node (← l) (← r) : Checked Expr) = .ok e →
        (∀ x y, x.OnRow named → y.OnRow named → (node x y).OnRow named) →
        ∃ x y, l = .ok x ∧ r = .ok y ∧ (x.OnRow named → y.OnRow named → e.OnRow named) := by
    intro l r node bound nodes
    obtain ⟨x, rfl, afterLeft⟩ := Checked.bind_eq_ok.1 bound
    obtain ⟨y, rfl, eq⟩ := Checked.bind_eq_ok.1 afterLeft
    cases eq
    exact ⟨x, y, rfl, rfl, nodes x y⟩
  have right : ∀ {l r : Checked Expr} {node : Expr → Expr → Expr},
      (do
        let y ← r
        let x ← l
        return node x y : Checked Expr) = .ok e →
        (∀ x y, x.OnRow named → y.OnRow named → (node x y).OnRow named) →
        ∃ x y, l = .ok x ∧ r = .ok y ∧ (x.OnRow named → y.OnRow named → e.OnRow named) := by
    intro l r node bound nodes
    obtain ⟨y, rfl, afterRight⟩ := Checked.bind_eq_ok.1 bound
    obtain ⟨x, rfl, eq⟩ := Checked.bind_eq_ok.1 afterRight
    cases eq
    exact ⟨x, y, rfl, rfl, nodes x y⟩
  cases op with
  | and => exact onRow_of_fold h (fun _ _ => .connect _) each
  | or => exact onRow_of_fold h (fun _ _ => .connect _) each
  | xor => exact onRow_of_fold h (fun _ _ => .connect _) each
  | plus => exact onRow_of_fold h (fun _ _ => .arith _) each
  | minus => exact onRow_of_fold h (fun _ _ => .arith _) each
  | times => exact onRow_of_fold h (fun _ _ => .arith _) each
  | divide => exact onRow_of_fold h (fun _ _ => .arith _) each
  | eq => exact onRow_of_pair h (fun _ _ bound => left bound fun _ _ => .compare _) each
  | notEq =>
    exact onRow_of_pair h (fun _ _ bound => left bound fun _ _ hl hr => (hl.compare _ hr).not) each
  | lt => exact onRow_of_pair h (fun _ _ bound => left bound fun _ _ => .compare _) each
  | gt =>
    refine onRow_of_pair h (fun _ _ bound => ?_) each
    exact right bound fun _ _ hl hr => hr.compare _ hl
  | le =>
    refine onRow_of_pair h (fun _ _ bound => ?_) each
    exact left bound fun _ _ hl hr => (hl.compare _ hr).connect _ (hl.compare _ hr)
  | ge =>
    refine onRow_of_pair h (fun _ _ bound => ?_) each
    exact right bound fun _ _ hl hr => (hr.compare _ hl).connect _ (hl.compare _ hr)
  | is => exact onRow_of_pair h (fun _ _ bound => left bound fun _ _ => .is) each
  | isNot =>
    exact onRow_of_pair h (fun _ _ bound => left bound fun _ _ hl hr => (hl.is hr).not) each

end Operator

namespace Tree

variable {check : FieldCheck}

mutual

/-- A bound tree names the fields that were accepted, and nothing else. -/
theorem onRow_bind : (tree : Tree) → {e : Expr} → tree.bind check = .ok e →
    e.OnRow fun name => check name = .ok ()
  | .const v, e, h => by
    cases h
    exact .const v
  | .field name, e, h => by
    obtain ⟨⟨⟩, accepted, eq⟩ := Checked.bind_eq_ok.1 h
    cases eq
    exact .field accepted
  | .apply op operands, e, h => Operator.onRow_bind h (onRow_bindEach operands)
  | .negate operand, e, h => by
    obtain ⟨x, bound, eq⟩ := Checked.bind_eq_ok.1 h
    cases eq
    exact .arith _ (.const _) (onRow_bind operand bound)
  | .not operand, e, h => by
    obtain ⟨x, bound, eq⟩ := Checked.bind_eq_ok.1 h
    cases eq
    exact (onRow_bind operand bound).not

theorem onRow_bindEach : (trees : List Tree) → ∀ x : Expr, .ok x ∈ bindEach check trees →
    x.OnRow fun name => check name = .ok ()
  | [], x, mem => by cases mem
  | t :: ts, x, mem => by
    rcases List.mem_cons.1 mem with first | mem
    · exact onRow_bind t first.symm
    · exact onRow_bindEach ts x mem

end

/-- What is bound to the fields of a reader names only these. -/
theorem onRow_among {has : String → Bool} {tree : Tree} {e : Expr}
    (h : tree.bind (.among has) = .ok e) : e.OnRow fun name => has name = true := by
  refine (tree.onRow_bind h).mono fun name accepted => ?_
  cases known : has name with
  | true => rfl
  | false =>
    rw [FieldCheck.among, known] at accepted
    cases accepted

/-- What is bound without fields names none. -/
theorem onRow_forbidden {tree : Tree} {e : Expr} (h : tree.bind .forbidden = .ok e) :
    e.OnRow fun _ => False :=
  (tree.onRow_bind h).mono fun _ accepted => nomatch accepted

end Tree

/-- The expression has the same outcome on a row whatever the tables hold. -/
def Expr.Storeless (e : Expr) : Prop :=
  ∀ stores stores' row, e.eval stores row = e.eval stores' row

theorem Expr.OnRow.storeless {named : String → Prop} {e : Expr} (h : e.OnRow named) :
    e.Storeless := by
  intro stores stores' row
  induction h with
  | const v => rfl
  | field => rfl
  | compare op _ _ left right => rw [eval, eval, left, right]
  | connect op _ _ left right => rw [eval, eval, left, right]
  | arith op _ _ left right => rw [eval, eval, left, right]
  | not _ operand => rw [eval, eval, operand]
  | is _ _ left right => rw [eval, eval, left, right]

/-- A bound tree is evaluated in the same way over all tables. -/
theorem Tree.storeless_bind {check : FieldCheck} (tree : Tree) {e : Expr}
    (h : tree.bind check = .ok e) : e.Storeless :=
  (tree.onRow_bind h).storeless

end RelEngine
