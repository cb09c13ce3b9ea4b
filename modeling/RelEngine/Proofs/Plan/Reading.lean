import Mathlib.Data.List.Basic
import RelEngine.Cursor
import RelEngine.Proofs.Scan.Joins
import RelEngine.Proofs.Scan.Lists
import RelEngine.Proofs.Scan.Products

/-!
Reading a plan gives the rows that the plan stands for.

The main statement is `Cursor.records_eq_rows`: from wherever a cursor stands, going back and reading to
the end gives `Plan.rows`, unless a predicate fails on a row that it is asked about.
-/
namespace RelEngine

/-! ## The number of rows -/

theorem length_flatMap_le {α β : Type} {f : α → List β} {n : Nat} (l : List α)
    (h : ∀ a, (f a).length ≤ n) : (l.flatMap f).length ≤ l.length * n := by
  induction l with
  | nil => simp
  | cons a l ih =>
    rw [List.flatMap_cons, List.length_append, List.length_cons, Nat.succ_mul, Nat.add_comm]
    exact Nat.add_le_add ih (h a)

namespace Plan

theorem length_joinedRows_le (readsInner : String → Bool) (accepts : Record → Checked Bool)
    (inner : List Record) (outer : Record) :
    (joinedRows readsInner accepts inner outer).length ≤ inner.length + 1 := by
  unfold joinedRows
  simp only
  split
  · simp
  · have le := List.length_filter_le (fun record => decide (accepts record = .ok true))
      (inner.map fun record => Record.join readsInner outer (some record))
    rw [List.length_map] at le
    exact Nat.le_succ_of_le le

/-- The bound that a reader announces is kept. -/
theorem length_rows_le (stores : Stores) :
    (plan : Plan) → (plan.rows stores).length ≤ plan.scan.rowBound stores
  | .table view => by
    simp only [rows, List.length_map]
    exact Nat.le_of_eq (List.length_map _)
  | .product left right => by
    have hl := left.length_rows_le stores
    have hr := right.length_rows_le stores
    calc ((Plan.product left right).rows stores).length
        ≤ (left.rows stores).length * right.scan.rowBound stores :=
          length_flatMap_le _ fun _ => by rw [List.length_map]; exact hr
      _ ≤ (left.scan.rowBound stores + 1) * right.scan.rowBound stores :=
          Nat.mul_le_mul_right _ (Nat.le_succ_of_le hl)
  | .select child predicate => by
    have hc := child.length_rows_le stores
    exact Nat.le_trans (List.length_filter_le _ _) hc
  | .join outer inner predicate flipped => by
    have ho := outer.length_rows_le stores
    have hi := inner.length_rows_le stores
    calc ((Plan.join outer inner predicate flipped).rows stores).length
        ≤ (outer.rows stores).length * ((inner.rows stores).length + 1) :=
          length_flatMap_le _ fun _ => length_joinedRows_le _ _ _ _
      _ ≤ (outer.scan.rowBound stores + 1) * (inner.scan.rowBound stores + 1) :=
          Nat.mul_le_mul (Nat.le_succ_of_le ho) (Nat.succ_le_succ hi)
  | .extend child value name => by
    have hc := child.length_rows_le stores
    rw [rows, List.length_map]
    exact hc
  | .single value name => Nat.le_refl 1
  | .project child fields => by
    have hc := child.length_rows_le stores
    rw [rows, List.length_map]
    exact hc

/-! ## The reader of a plan -/

/-- The reader of a plan gives the plan's rows, whichever way the plan is built. -/
theorem lists (stores : Stores) :
    (plan : Plan) → plan.scan.Lists stores (plan.rows stores) (plan.Fails stores)
  | .table view => Scan.lists_table view
  | .product left right =>
    ((left.lists stores).weaken fun _ => .inl).product ((right.lists stores).weaken fun _ => .inr)
  | .select child predicate => (child.lists stores).select (child.length_rows_le stores)
  | .join outer inner predicate flipped => by
    have ho : outer.scan.Lists stores (outer.rows stores)
        ((Plan.join outer inner predicate flipped).Fails stores) :=
      (outer.lists stores).weaken fun _ cause => .inl cause
    have hi : inner.scan.Lists stores (inner.rows stores)
        ((Plan.join outer inner predicate flipped).Fails stores) :=
      (inner.lists stores).weaken fun _ cause => .inr (.inl cause)
    exact Scan.Join.lists ho hi (inner.length_rows_le stores)
      fun o mo i mi _ bad => .inr (.inr ⟨o, mo, i, mi, bad⟩)
  | .extend child value name => (child.lists stores).extend
  | .single value name => Scan.lists_single _ _
  | .project child fields => (child.lists stores).project

/-- Whether a plan has rows is answered as its list of rows says. -/
theorem hasRow (stores : Stores) (plan : Plan) :
    plan.scan.hasRow stores = .ok (!(plan.rows stores).isEmpty) ∨
      ∃ e, plan.Fails stores e ∧ plan.scan.hasRow stores = .error e := by
  unfold Scan.hasRow
  cases plan.lists stores with
  | failed e broken cause =>
    obtain ⟨t, h⟩ := broken plan.scan.start
    exact .inr ⟨e, cause, by rw [Move.runFrom_bind_error h]⟩
  | ready start rewinds follows =>
    rw [Move.runFrom_bind_ok (rewinds _)]
    generalize plan.rows stores = rows at follows
    cases follows with
    | done last _ => exact .inl (by rw [last]; rfl)
    | row moved _ => exact .inl (by rw [moved]; rfl)
    | failed broken cause => exact .inr ⟨_, cause, by rw [broken]⟩

end Plan

namespace Cursor

variable {α : Type} {stores : Stores} {f : Record → Checked α} {rows : List Record}
  {fails : Error → Prop}

/-- What a reading can come to: every row, or the rows before an error. -/
inductive Reads (stores : Stores) (f : Record → Checked α) (rows : List Record)
    (fails : Error → Prop) : Reading α → Prop
  | all {values finish} : rows.map f = values.map .ok →
      finish.next stores = (.ok false, finish) → Reads stores f rows fails ⟨values, none, finish⟩
  | part {values e finish} : values.map .ok <+: rows.map f →
      (fails e ∨ .error e ∈ rows.map f) → Reads stores f rows fails ⟨values, some e, finish⟩

theorem readOn_reads {plan : Plan} {s : plan.State} {fuel : Nat}
    (h : Follows (plan.scan.next stores) (plan.scan.read stores) fails s rows)
    (enough : rows.length < fuel) :
    Reads stores f rows fails (readOn stores (fun c => f (c.read stores)) fuel ⟨plan, s⟩) := by
  induction h generalizing fuel with
  | done last stays =>
    obtain ⟨fuel, rfl⟩ := Nat.exists_eq_succ_of_ne_zero (Nat.ne_zero_of_lt enough)
    simp only [readOn, next, step, last]
    exact .all rfl (by simp only [next, step, stays])
  | @row s t rest moved _ ih =>
    obtain ⟨fuel, rfl⟩ := Nat.exists_eq_succ_of_ne_zero (Nat.ne_zero_of_lt enough)
    simp only [readOn, next, step, moved]
    have look : (Cursor.mk plan t).read stores = plan.scan.read stores t := rfl
    rw [look]
    cases value : f (plan.scan.read stores t) with
    | error e =>
      refine .part (List.nil_prefix) (.inr ?_)
      simp [value]
    | ok v =>
      have reads := ih (Nat.lt_of_succ_lt_succ enough)
      simp only
      generalize readOn stores (fun c => f (c.read stores)) fuel ⟨plan, t⟩ = reading at reads
      cases reads with
      | all eq stays => exact .all (by simp [value, eq]) stays
      | part before cause =>
        refine .part ?_ (cause.imp_right ?_)
        · simpa [value] using before
        · simp [value]
  | failed broken cause =>
    obtain ⟨fuel, rfl⟩ := Nat.exists_eq_succ_of_ne_zero (Nat.ne_zero_of_lt enough)
    simp only [readOn, next, step, broken]
    exact .part List.nil_prefix (.inl cause)

/-- A cursor that went back reads the rows that its reader gives. -/
theorem reads_of_lists {c : Cursor} (h : c.plan.scan.Lists stores (c.plan.rows stores) fails)
    (f : Record → Checked α) :
    (∃ e, fails e ∧ c.rewound stores = .error e) ∨
      ∃ start, c.rewound stores = .ok start ∧
        Reads stores f (c.plan.rows stores) fails
          (start.readAll stores fun c => f (c.read stores)) := by
  obtain ⟨plan, s⟩ := c
  cases h with
  | failed e broken cause =>
    obtain ⟨t, h⟩ := broken s
    exact .inl ⟨e, cause, by simp only [rewound, rewind, step, h]⟩
  | ready start rewinds follows =>
    refine .inr ⟨⟨plan, start⟩, by simp only [rewound, rewind, step, rewinds], ?_⟩
    exact readOn_reads follows (Nat.lt_succ_of_le (plan.length_rows_le stores))

theorem rewound_reads (c : Cursor) (stores : Stores) (f : Record → Checked α) :
    (∃ e, c.plan.Fails stores e ∧ c.rewound stores = .error e) ∨
      ∃ start, c.rewound stores = .ok start ∧
        Reads stores f (c.plan.rows stores) (c.plan.Fails stores)
          (start.readAll stores fun c => f (c.read stores)) :=
  reads_of_lists (c.plan.lists stores) f

/-- The rows from the start to the end, each by the results of reading its names. -/
def records (c : Cursor) (stores : Stores) : Checked (Reading Record) := do
  let start ← c.rewound stores
  return start.readAll stores fun c => .ok (c.read stores)

/-- Wherever a cursor stands, going back and reading on until there is no more gives the rows that its
plan stands for, and the cursor then stays at the end. The only error on the way is that of a predicate
on a row, or a pair of rows, of its parts; what was read before it is the beginning of the same rows.
An expression that asks for the rows of the plan is answered by the same list. -/
theorem records_eq_rows (c : Cursor) (stores : Stores) :
    ((∃ finish, c.records stores = .ok ⟨c.plan.rows stores, none, finish⟩ ∧
        finish.next stores = (.ok false, finish)) ∨
      ∃ e, c.plan.Fails stores e ∧ (c.records stores = .error e ∨
        ∃ rows finish, c.records stores = .ok ⟨rows, some e, finish⟩ ∧
          rows <+: c.plan.rows stores)) ∧
    ∀ row, (Expr.exists c.plan).eval stores row =
        .ok (Value.ofBool !(c.plan.rows stores).isEmpty) ∨
      ∃ e, c.plan.Fails stores e ∧ (Expr.exists c.plan).eval stores row = .error e := by
  refine ⟨?_, fun row => ?_⟩
  · rcases c.rewound_reads stores (Except.ok : Record → Checked Record) with
      ⟨e, cause, broken⟩ | ⟨start, rewound, reads⟩
    · exact .inr ⟨e, cause, .inl (by rw [records, broken]; rfl)⟩
    · have eq : c.records stores = .ok (start.readAll stores fun c => .ok (c.read stores)) := by
        rw [records, rewound]
        rfl
      have injective : Function.Injective (Except.ok : Record → Checked Record) :=
        fun _ _ => Except.ok.inj
      rw [eq]
      generalize start.readAll stores (fun c => .ok (c.read stores)) = reading at reads
      cases reads with
      | all same stays =>
        rw [injective.list_map same]
        exact .inl ⟨_, rfl, stays⟩
      | @part rows e finish before cause =>
        refine .inr ⟨e, ?_, .inr ⟨rows, finish, rfl, ?_⟩⟩
        · rcases cause with cause | mem
          · exact cause
          · simp at mem
        · exact (List.prefix_map_iff_of_injective injective).1 before
  · have asked : (Expr.exists c.plan).eval stores row =
        (c.plan.scan.hasRow stores).map Value.ofBool := rfl
    rw [asked]
    rcases Plan.hasRow stores c.plan with eq | ⟨e, cause, eq⟩
    · exact .inl (by rw [eq]; rfl)
    · exact .inr ⟨e, cause, by rw [eq]; rfl⟩

end Cursor

end RelEngine
