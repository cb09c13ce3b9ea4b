import RelEngine.Proofs.Tree.Binding

/-!
Which trees can be bound, and what the bound ones mean.

The main statement is `Tree.bind_exact`. A tree can be bound if its operators have as many operands as they
take and its names are known where they are looked up; nothing else is asked of it. On every row the
expression then has the value of the tree, and it fails where the tree has none.
-/
namespace RelEngine

/-- Where the fields of a name are to be found: the names that are known there. A name may also be refused. -/
abbrev FieldSelector := String → Checked (String → Bool)

namespace FieldCheck

/-- A name is accepted if it is known in the place that it is looked up in. -/
def through (select : FieldSelector) : FieldCheck := fun name => do
  let has ← select name
  among has name

theorem through_among (has : String → Bool) : through (fun _ => .ok has) = among has := rfl

theorem through_forbidden :
    through (fun name => .error (.fieldAccessForbidden name)) = forbidden := rfl

theorem among_eq_ok {has : String → Bool} {name : String} :
    among has name = .ok () ↔ has name = true := by
  unfold among
  cases has name with
  | true => simp
  | false => simp

theorem through_eq_ok {select : FieldSelector} {name : String} :
    through select name = .ok () ↔ ∃ has, select name = .ok has ∧ has name = true := by
  simp only [through, Checked.bind_eq_ok, among_eq_ok]

end FieldCheck

/-! ## Operators -/

namespace Operator

variable {op : Operator} {operands : List (Checked Expr)}

theorem takes_of_bind {e : Expr} (h : op.bind operands = .ok e) : op.Takes operands.length := by
  have fold : ∀ {node : Expr → Expr → Expr}, op.foldOperands node operands = .ok e →
      2 ≤ operands.length := by
    intro node folded
    obtain ⟨first, second, rest, rfl, -⟩ := foldOperands_eq_ok folded
    simp
  have pair : ∀ {node : Checked Expr → Checked Expr → Checked Expr},
      op.pairOperands node operands = .ok e → operands.length = 2 := by
    intro node paired
    obtain ⟨a, b, rfl, -⟩ := pairOperands_eq_ok paired
    rfl
  unfold Takes
  cases op with
  | and | or | xor | plus | minus | times | divide => exact ⟨fold h, nofun⟩
  | eq | notEq | lt | le | gt | ge | is | isNot =>
    have two := pair h
    exact ⟨Nat.le_of_eq two.symm, fun _ => two⟩

/-- Binding fails for a wrong number of operands or for one that is itself not bound. -/
theorem bind_eq_ok : (∃ e, op.bind operands = .ok e) ↔
    op.Takes operands.length ∧ ∀ x ∈ operands, ∃ e, x = .ok e := by
  constructor
  · rintro ⟨e, bound⟩
    constructor
    · exact takes_of_bind bound
    · obtain ⟨es, rfl, -⟩ := bind_means bound
      intro x mem
      obtain ⟨y, -, rfl⟩ := List.mem_map.1 mem
      exact ⟨y, rfl⟩
  · rintro ⟨takes, each⟩
    obtain ⟨es, isBound⟩ := Checked.mapM_of_forall (f := id) each
    have eq := Checked.mapM_eq_ok.1 isBound
    rw [List.map_id] at eq
    subst eq
    rw [List.length_map] at takes
    exact bind_of_takes takes

end Operator

/-! ## Trees -/

namespace Tree

mutual

/-- Every operator has as many operands as it takes. -/
def Formed : Tree → Prop
  | .const _ => True
  | .field _ => True
  | .apply op operands => op.Takes operands.length ∧ AllFormed operands
  | .negate operand => operand.Formed
  | .not operand => operand.Formed

def AllFormed : List Tree → Prop
  | [] => True
  | t :: ts => t.Formed ∧ AllFormed ts

end

variable {check : FieldCheck}

theorem length_bindEach (trees : List Tree) : (bindEach check trees).length = trees.length := by
  induction trees with
  | nil => rfl
  | cons t ts ih => rw [bindEach, List.length_cons, List.length_cons, ih]

mutual

theorem bind_eq_ok : (tree : Tree) → ((∃ e, tree.bind check = .ok e) ↔
    tree.Formed ∧ ∀ name ∈ tree.names, check name = .ok ())
  | .const v => by simp [bind, Formed, names]
  | .field name => by
    simp only [bind, Formed, names, Checked.bind_eq_ok, List.mem_singleton, forall_eq, true_and]
    constructor
    · rintro ⟨_, ⟨⟩, known, -⟩
      exact known
    · intro known
      exact ⟨_, (), known, rfl⟩
  | .apply op operands => by
    rw [bind, Operator.bind_eq_ok, length_bindEach, bindEach_eq_ok operands, Formed, names, and_assoc]
  | .negate operand => by
    rw [Formed, names, ← bind_eq_ok operand, bind]
    exact Checked.exists_map_eq_ok
  | .not operand => by
    rw [Formed, names, ← bind_eq_ok operand, bind]
    exact Checked.exists_map_eq_ok

theorem bindEach_eq_ok : (trees : List Tree) → ((∀ x ∈ bindEach check trees, ∃ e, x = .ok e) ↔
    AllFormed trees ∧ ∀ name ∈ namesOfAll trees, check name = .ok ())
  | [] => by simp [bindEach, AllFormed, namesOfAll]
  | t :: ts => by
    rw [bindEach, List.forall_mem_cons, bind_eq_ok t, bindEach_eq_ok ts, AllFormed, namesOfAll,
      List.forall_mem_append]
    constructor
    · rintro ⟨⟨formed, known⟩, areFormed, areKnown⟩
      exact ⟨⟨formed, areFormed⟩, known, areKnown⟩
    · rintro ⟨⟨formed, areFormed⟩, known, areKnown⟩
      exact ⟨⟨formed, known⟩, areFormed, areKnown⟩

end

/-- A tree is bound if it is formed as its operators ask for and each of its names is accepted by the selector
and known in the place that the selector picks. The bound expression has on every row the value that the tree
itself has there, and no value where the tree has none. -/
theorem bind_exact (select : FieldSelector) (tree : Tree) :
    ((∃ e, tree.bind (FieldCheck.through select) = .ok e) ↔
      tree.Formed ∧ ∀ name ∈ tree.names, ∃ has, select name = .ok has ∧ has name = true) ∧
    ∀ e, tree.bind (FieldCheck.through select) = .ok e → ∀ stores row v,
      e.eval stores row = .ok v ↔ tree.value row = .ok v := by
  constructor
  · simp only [bind_eq_ok, FieldCheck.through_eq_ok]
  · intro e bound stores row v
    have same : (e.eval stores row).toOption = (tree.value row).toOption :=
      toOption_eval_bind tree bound fun _ _ => rfl
    rw [← Checked.toOption_eq_some, ← Checked.toOption_eq_some, same]

/-- The selector that knows two names. -/
def twoNames : FieldSelector := fun _ => .ok fun name => name == "x" || name == "a"

/-- A NaN and a one. -/
def nanRow (name : String) : Checked Value :=
  if name == "x" then .ok (some (.double (Binary.nan true))) else .ok (some (.int 1))

/-- `NOT -(x <> x OR a <= NULL)` -/
def nestedTree : Tree :=
  .not (.negate (.apply .or
    [.apply .notEq [.field "x", .field "x"], .apply .le [.field "a", .const none]]))

/-- A NaN differs from itself, which decides the disjunction; minus makes an integer of it, and NOT a boolean
again. -/
theorem bind_exact_nan : ∃ e, nestedTree.bind (FieldCheck.through twoNames) = .ok e ∧
    e.eval [] nanRow = .ok (some (.bool false)) := by
  have formed : nestedTree.Formed := by
    simp [nestedTree, Formed, AllFormed, Operator.Takes]
  have known : ∀ name ∈ nestedTree.names, ∃ has, twoNames name = .ok has ∧ has name = true := by
    simp [nestedTree, names, namesOfAll, twoNames]
  obtain ⟨e, bound⟩ := (bind_exact twoNames nestedTree).1.2 ⟨formed, known⟩
  have isValue : nestedTree.value nanRow = .ok (some (.bool false)) := by decide +kernel
  exact ⟨e, bound, ((bind_exact twoNames nestedTree).2 e bound [] nanRow _).2 isValue⟩

end Tree

end RelEngine
