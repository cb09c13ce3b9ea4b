import RelEngine.Proofs.Plan.Reading
import RelEngine.Proofs.Query.Opening
import RelEngine.Query.Result

/-!
Opening and collecting, whatever the query: when going back to the start cannot fail, and what is
collected from there.
-/
namespace RelEngine

variable {stores : Stores}

/-! ## Going back -/

namespace Plan

/-- Nothing can fail in reading the plan. -/
def Safe (stores : Stores) (plan : Plan) : Prop := ∀ e, ¬ plan.Fails stores e

/-- Going back to the start succeeds wherever the reader stands. -/
def Rewinds (stores : Stores) (plan : Plan) : Prop :=
  ∀ s, ∃ t, (plan.scan.rewind stores).runFrom s = (.ok (), t)

theorem Safe.rewinds {plan : Plan} (h : plan.Safe stores) : plan.Rewinds stores := by
  intro s
  cases plan.lists stores with
  | ready start rewinds _ => exact ⟨start, rewinds s⟩
  | failed e _ cause => exact absurd cause (h e)

theorem safe_table (view : TableView) : (Plan.table view).Safe stores := fun _ cause => cause.elim

theorem Safe.product {left right : Plan} (hl : left.Safe stores) (hr : right.Safe stores) :
    (Plan.product left right).Safe stores :=
  fun e cause => cause.elim (hl e) (hr e)

/-- The predicate of a join is not asked on the way back, so it may as well be one that never fails. -/
theorem rewinds_join {outer inner : Plan} (ho : outer.Safe stores) (hi : inner.Safe stores)
    (predicate : Expr) (flipped : Bool) : (Plan.join outer inner predicate flipped).Rewinds stores := by
  have always : (Plan.join outer inner (.const (Value.ofBool true)) flipped).Safe stores := by
    rintro e (cause | cause | ⟨o, _, i, _, bad⟩)
    · exact ho e cause
    · exact hi e cause
    · cases bad
  exact always.rewinds

end Plan

namespace Cursor

variable {c left right outer inner : Cursor}

theorem rewound_eq_ok (h : c.plan.Rewinds stores) : ∃ start, c.rewound stores = .ok start := by
  obtain ⟨t, back⟩ := h c.state
  exact ⟨⟨c.plan, t⟩, by simp only [rewound, rewind, step, back]⟩

theorem product_eq_ok (hl : left.plan.Safe stores) (hr : right.plan.Safe stores) :
    ∃ c, left.product right stores = .ok c :=
  rewound_eq_ok (hl.product hr).rewinds

theorem join_eq_ok (ho : outer.plan.Safe stores) (hi : inner.plan.Safe stores) (predicate : Expr)
    (flipped : Bool) : ∃ c, join outer inner predicate flipped stores = .ok c :=
  rewound_eq_ok (Plan.rewinds_join ho hi predicate flipped)

end Cursor

/-! ## Opening -/

/-- What an opened query was made of. -/
theorem Query.query_eq_ok {db : Database} {items : List SelectItem}
    {sources : List (FromItem Query)} {joins : List JoinClause} {filter : Option Tree}
    {opened : OpenQuery} (h : db.query ⟨items, sources, joins, filter⟩ = .ok opened) :
    ∃ first cursors scope child, openSources db sources .empty = .ok (first, cursors) ∧
      checkNames db first items joins filter = .ok scope ∧
      build db cursors items joins filter = .ok child ∧
      opened.fields = scope.outputNames items ∧
      (child.project opened.fields).rewound db.stores = .ok opened.cursor := by
  rw [Database.query, openOn] at h
  split at h
  · cases h
  obtain ⟨⟨first, cursors⟩, isOpened, h⟩ := Checked.bind_eq_ok.1 h
  obtain ⟨scope, isChecked, h⟩ := Checked.bind_eq_ok.1 h
  obtain ⟨child, isBuilt, h⟩ := Checked.bind_eq_ok.1 h
  obtain ⟨cursor, rewound, eq⟩ := Checked.bind_eq_ok.1 h
  cases eq
  exact ⟨first, cursors, scope, child, isOpened, isChecked, isBuilt, rfl, rewound⟩

theorem Query.joinSources_eq_ok {db : Database} {cursors : List Cursor}
    (safe : ∀ c ∈ cursors, c.plan.Safe db.stores) :
    ∃ rows, joinSources db cursors = .ok rows ∧ ∀ c ∈ rows, c.plan.Safe db.stores := by
  have folded : ∀ (cursors : List Cursor) (first : Cursor), first.plan.Safe db.stores →
      (∀ c ∈ cursors, c.plan.Safe db.stores) →
      ∃ c, cursors.foldlM (fun left right => left.product right db.stores) first = .ok c ∧
        c.plan.Safe db.stores := by
    intro cursors
    induction cursors with
    | nil => exact fun first safe _ => ⟨first, rfl, safe⟩
    | cons next cursors ih =>
      intro first isSafe areSafe
      have nextSafe := areSafe next List.mem_cons_self
      obtain ⟨product, made⟩ := Cursor.product_eq_ok isSafe nextSafe
      obtain ⟨c, isFold, safe⟩ := ih product
        (by rw [Cursor.plan_of_product made]; exact isSafe.product nextSafe)
        fun c mem => areSafe c (List.mem_cons_of_mem _ mem)
      refine ⟨c, ?_, safe⟩
      rw [List.foldlM_cons, made]
      exact isFold
  cases cursors with
  | nil => exact ⟨none, rfl, nofun⟩
  | cons first cursors =>
    obtain ⟨c, isFold, isSafe⟩ := folded cursors first (safe first List.mem_cons_self)
      fun c mem => safe c (List.mem_cons_of_mem _ mem)
    refine ⟨some c, ?_, ?_⟩
    · rw [joinSources, isFold]
      rfl
    · intro _ mem
      cases mem
      exact isSafe

/-! ## Collecting -/

/-- Collecting from the start gives every row of the plan, or stops at an error that reading the plan or
one of its rows gives. -/
theorem OpenQuery.collect_of_rewound {c start : Cursor} {fails : Error → Prop}
    (lists : c.plan.scan.Lists stores (c.plan.rows stores) fails)
    (h : c.rewound stores = .ok start) (fields : List String) :
    (∃ rows, (OpenQuery.mk fields start).collect stores = .ok rows ∧
        (c.plan.rows stores).map (fun record => fields.mapM record) = rows.map .ok) ∨
      ∃ e, (OpenQuery.mk fields start).collect stores = .error e ∧
        (fails e ∨ .error e ∈ (c.plan.rows stores).map fun record => fields.mapM record) := by
  rcases Cursor.reads_of_lists lists (fun record => fields.mapM record) with
    ⟨e, _, broken⟩ | ⟨same, rewound, reads⟩
  · rw [h] at broken
    cases broken
  rw [h] at rewound
  cases rewound
  have asReads : (OpenQuery.mk fields start).read stores =
      start.readAll stores fun c => fields.mapM (c.read stores) := rfl
  rw [OpenQuery.collect, asReads]
  generalize start.readAll stores (fun c => fields.mapM (c.read stores)) = reading at reads
  cases reads with
  | all eq _ => exact .inl ⟨_, rfl, eq⟩
  | part _ cause => exact .inr ⟨_, rfl, cause⟩

end RelEngine
