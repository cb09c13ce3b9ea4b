import RelEngine.Proofs.Plan.Naming
import RelEngine.Proofs.Plan.Writing

/-!
The fields that a reader has are the ones that it resolves.

What a plan has, what it reads and what it writes are three recursions over its operators, and a computed field
reads whatever its expression names. The three agree where every computed field was bound to the rows that it is
computed from: a field that the plan has is never missing when it is read, in no state of the reader, and one
that it does not have is missing for reading and for writing alike. The main statement is `Plan.fields_exact`.
-/
namespace RelEngine.Plan

/-- Each computed field of the plan is a tree bound to the fields of the plan below it, or to no fields where
there is none. Predicates are not asked about. -/
inductive FieldsBound : Plan → Prop where
  | table (view : TableView) : FieldsBound (.table view)
  | product {left right : Plan} (hl : FieldsBound left) (hr : FieldsBound right) :
    FieldsBound (.product left right)
  | select {child : Plan} (h : FieldsBound child) (predicate : Expr) : FieldsBound (.select child predicate)
  | join {outer inner : Plan} (ho : FieldsBound outer) (hi : FieldsBound inner) (predicate : Expr)
    (flipped : Bool) : FieldsBound (.join outer inner predicate flipped)
  | extend {child : Plan} {tree : Tree} {value : Expr} (h : FieldsBound child)
    (bound : tree.bind (.among child.has) = .ok value) (name : String) :
    FieldsBound (.extend child value name)
  | single {check : FieldCheck} {tree : Tree} {value : Expr} (closed : ∀ field, check field ≠ .ok ())
    (bound : tree.bind check = .ok value) (name : String) : FieldsBound (.single value name)
  | project {child : Plan} (h : FieldsBound child) (fields : List String) :
    FieldsBound (.project child fields)

variable {plan outer inner : Plan} {predicate value : Expr} {tree : Tree} {name : String} {stores : Stores}

/-! ## Reading -/

/-- A tree that was bound to the fields of a reader finds them on whatever the reader stands. -/
theorem other_of_bound (resolves : plan.scan.Resolves) (bound : tree.bind (.among plan.has) = .ok value)
    {s : plan.State} {e : Error} (bad : value.eval stores (plan.read stores s) = .error e) : e.Other :=
  Scan.other_of_eval (Tree.onRow_among bound) (resolves.found stores s) bad

/-- The induction is on the plan. A computed field is read through its expression, which names only fields of
the plan below. -/
theorem FieldsBound.resolves (h : plan.FieldsBound) : plan.scan.Resolves := by
  induction h with
  | table view => exact Scan.resolves_table view
  | product _ _ hl hr => exact Scan.Resolves.product hl hr
  | select _ predicate ih => exact ih.select _
  | join _ _ predicate flipped ho hi => exact Scan.Join.resolves ho hi
  | extend _ bound name ih => exact ih.extend fun stores s e => other_of_bound ih bound
  | @single check tree value closed bound name =>
    refine Scan.resolves_single fun stores e bad => ?_
    exact Scan.other_of_eval (tree.onRow_bind bound) (fun field _ accepted => absurd accepted (closed field)) bad
  | project _ fields ih => exact ih.project fields

/-- A join asks its predicate on the pair of rows under it, where a lack of matches is not seen. -/
theorem other_of_bound_pair {flipped : Bool} (ho : outer.scan.Resolves) (hi : inner.scan.Resolves)
    {accepts : Condition} (bound : tree.bind (.among (join outer inner predicate flipped).has) = .ok value)
    {s : JoinState outer.State inner.State} {e : Error}
    (bad : value.eval stores
      (Scan.Join.readPair ⟨outer.scan, inner.scan, accepts, flipped⟩ stores s) = .error e) : e.Other :=
  Scan.other_of_eval (Tree.onRow_among bound) (fun _ _ known => Scan.Join.readPair_found ho hi known) bad

/-! ## Writing -/

/-- A field that the plan does not have is not written, and it is missed under the name that was asked for. -/
theorem write_of_not_has (value : Value) : (plan : Plan) → (s : plan.State) → plan.has name = false →
    plan.write stores s name value = .error (.fieldNotFound name)
  | .table view, position, hasNot => by
    rw [write, TableView.write, TableView.resolve_of_not_has hasNot]
    rfl
  | .product left right, (s : ProductState left.State right.State), hasNot => by
    obtain ⟨notLeft, notRight⟩ := Bool.or_eq_false_iff.1 hasNot
    change left.has name = false at notLeft
    change right.has name = false at notRight
    rw [write, notLeft, notRight]
    rfl
  | .select child _, s, hasNot => write_of_not_has value child s hasNot
  | .join outer inner _ flipped, (s : JoinState outer.State inner.State), hasNot => by
    obtain ⟨notOuter, notInner⟩ := Bool.or_eq_false_iff.1 hasNot
    change inner.has name = false at notInner
    rw [write, Scan.readsInner, notInner, Bool.and_false, ite_self]
    exact write_of_not_has value outer s.outer notOuter
  | .extend child _ computed, s, hasNot => by
    obtain ⟨differ, hasNot⟩ := Bool.or_eq_false_iff.1 hasNot
    rw [write, differ]
    exact write_of_not_has value child s hasNot
  | .single _ computed, s, (hasNot : (name == computed) = false) => by
    rw [write, hasNot]
    rfl
  | .project child fields, s, hasNot => by
    rw [write]
    split
    · next shown =>
      change (fields.contains name && child.has name) = false at hasNot
      rw [shown, Bool.true_and] at hasNot
      exact write_of_not_has value child s hasNot
    · rfl

/-! ## Together -/

/-- In every state of a reader and over all tables, a field that the plan has is not missing when it is read. One
that it does not have is missing for reading and for writing, under its own name, and the write has changed
nothing. So a tree bound to the plan does not miss a field on any row of it; nor does a join's predicate, which
is asked on pairs of rows. -/
theorem fields_exact (bound : plan.FieldsBound) (stores : Stores) (s : plan.State) :
    (∀ name, plan.has name = true → ∀ missing, plan.read stores s name ≠ .error (.fieldNotFound missing)) ∧
    (∀ name, plan.has name = false →
      plan.read stores s name = .error (.fieldNotFound name) ∧
      ∀ value, plan.write stores s name value = .error (.fieldNotFound name) ∧
        (plan.writeInPlace s name value).runFrom stores = (.error (.fieldNotFound name), stores)) ∧
    (∀ (tree : Tree) (e : Expr), tree.bind (.among plan.has) = .ok e →
      ∀ missing, e.eval stores (plan.read stores s) ≠ .error (.fieldNotFound missing)) ∧
    ∀ (outer inner : Plan) (predicate : Expr) (flipped : Bool), plan = .join outer inner predicate flipped →
      ∀ (tree : Tree) (e : Expr), tree.bind (.among plan.has) = .ok e →
      ∀ (accepts : Condition) (s : JoinState outer.State inner.State) (missing : String),
        e.eval stores (Scan.Join.readPair ⟨outer.scan, inner.scan, accepts, flipped⟩ stores s) ≠
          .error (.fieldNotFound missing) := by
  have resolves := bound.resolves
  refine ⟨?_, ?_, ?_, ?_⟩
  · intro name has missing bad
    exact resolves.found stores s name _ has bad missing rfl
  · intro name hasNot
    refine ⟨resolves.missing stores s name hasNot, fun value => ?_⟩
    have failed : plan.write stores s name value = .error (.fieldNotFound name) :=
      write_of_not_has value plan s hasNot
    refine ⟨failed, ?_⟩
    rw [runFrom_writeInPlace, failed]
  · intro tree e isBound missing bad
    exact other_of_bound resolves isBound bad missing rfl
  · rintro outer inner predicate flipped rfl tree e isBound accepts s missing bad
    cases bound with
    | join ho hi => exact other_of_bound_pair ho.resolves hi.resolves isBound bad missing rfl

/-- Two tables joined, and the sum of a field of each. -/
def summed : Plan :=
  .extend twice (.arith .plus (.field "a.x") (.field "b.x")) "sum"

/-- The sum is found where the join has no match, and a third field is not. -/
theorem fields_exact_summed :
    (∀ missing, summed.read twiceStores (twiceAt true) "sum" ≠ .error (.fieldNotFound missing)) ∧
    summed.read twiceStores (twiceAt true) "c.x" = .error (.fieldNotFound "c.x") ∧
    (summed.writeInPlace (twiceAt true) "c.x" none).runFrom twiceStores =
      (.error (.fieldNotFound "c.x"), twiceStores) := by
  have joined : twice.FieldsBound := .join (.table _) (.table _) _ _
  have isBound : (Tree.apply .plus [.field "a.x", .field "b.x"]).bind (.among twice.has) =
      .ok (.arith .plus (.field "a.x") (.field "b.x")) := by rfl
  have bound : summed.FieldsBound := .extend joined isBound "sum"
  obtain ⟨found, missing, -, -⟩ := fields_exact bound twiceStores (twiceAt true)
  obtain ⟨unread, unwritten⟩ := missing "c.x" (by decide)
  exact ⟨found "sum" (by decide), unread, (unwritten none).2⟩

end RelEngine.Plan
