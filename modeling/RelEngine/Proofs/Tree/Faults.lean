import RelEngine.Proofs.Checked
import RelEngine.Proofs.Tree.Storeless

/-!
What can go wrong in binding a tree and in evaluating it on a row.
-/
namespace RelEngine

/-- The errors of operators on values that they do not take. -/
inductive Error.OfOperands : Error → Prop where
  | mismatch (expected found : DataType) : OfOperands (.typeMismatch expected found)
  | refused (op : ArithOp) (left right : DataType) : OfOperands (.invalidOperation op left right)
  | divisionByZero : OfOperands .divisionByZero

/-! ## Evaluating -/

theorem Scalar.order?_eq_error {a b : Scalar} {x : Error} (h : a.order? b = .error x) :
    x.OfOperands := by
  unfold order? at h
  split at h
  · cases h
  · split at h
    · cases h
    · cases h
      exact .mismatch _ _

theorem Value.relate_eq_error {op : Comparison} {v w : Value} {x : Error}
    (h : Value.relate op v w = .error x) : x.OfOperands := by
  unfold relate at h
  split at h
  · rcases Checked.bind_eq_error.1 h with bad | ⟨_, _, eq⟩
    · exact Scalar.order?_eq_error bad
    · cases eq
  · cases h

theorem ArithOp.onInts_eq_error {op : ArithOp} {m n : Int} {x : Error}
    (h : op.onInts m n = .error x) : x.OfOperands := by
  cases op with
  | plus => cases h
  | minus => cases h
  | times => cases h
  | divide =>
    rw [onInts] at h
    split at h
    · cases h
      exact .divisionByZero
    · cases h

theorem Scalar.arith_eq_error {op : ArithOp} {a b : Scalar} {x : Error}
    (h : a.arith op b = .error x) : x.OfOperands := by
  unfold arith at h
  split at h
  · cases h
  · simp only at h
    split at h
    · rcases Checked.bind_eq_error.1 h with bad | ⟨n, _, h⟩
      · exact ArithOp.onInts_eq_error bad
      · cases fits : int32? n with
        | none =>
          rw [fits] at h
          cases h
          exact .refused _ _ _
        | some r =>
          rw [fits] at h
          cases h
    · split at h
      · cases h
      · split at h
        · cases h
        · cases h
          exact .refused _ _ _

theorem Value.arith_eq_error {op : ArithOp} {v w : Value} {x : Error}
    (h : Value.arith op v w = .error x) : x.OfOperands := by
  unfold arith at h
  split at h
  · rcases Checked.bind_eq_error.1 h with bad | ⟨_, _, eq⟩
    · exact Scalar.arith_eq_error bad
    · cases eq
  · cases h

/-- An evaluation fails in reading one of the fields that the expression names, or in an operator. -/
theorem Expr.OnRow.eval_eq_error {named : String → Prop} {e : Expr} (h : e.OnRow named)
    {stores : Stores} {row : String → Checked Value} {x : Error}
    (bad : e.eval stores row = .error x) :
    (∃ name, named name ∧ row name = .error x) ∨ x.OfOperands := by
  induction h with
  | const v => cases bad
  | field known => exact .inl ⟨_, known, bad⟩
  | compare op _ _ left right =>
    rcases Checked.bind_bind_eq_error bad with bad | bad | ⟨_, _, bad⟩
    · exact left bad
    · exact right bad
    · exact .inr (Value.relate_eq_error bad)
  | connect op _ _ left right =>
    rcases Checked.bind_bind_eq_error bad with bad | bad | ⟨_, _, bad⟩
    · exact left bad
    · exact right bad
    · cases bad
  | arith op _ _ left right =>
    rcases Checked.bind_bind_eq_error bad with bad | bad | ⟨_, _, bad⟩
    · exact left bad
    · exact right bad
    · exact .inr (Value.arith_eq_error bad)
  | not _ operand =>
    rcases Checked.bind_eq_error.1 bad with bad | ⟨_, _, bad⟩
    · exact operand bad
    · cases bad
  | is _ _ left right =>
    rcases Checked.bind_bind_eq_error bad with bad | bad | ⟨_, _, bad⟩
    · exact left bad
    · exact right bad
    · cases bad

end RelEngine
