import RelEngine.Proofs.Query.Collecting
import RelEngine.Proofs.Query.Results
import RelEngine.Proofs.Relation.Joins

/-!
The three kinds of joins as queries. They are built in three ways: an inner join filters a product with the
joined table in the outer loop, a left join has a reader of its own, and a right join is that reader with
the sides exchanged. They are refused alike and report the same fields, and what they return differs by the
rows without a match only.
-/
namespace RelEngine

/-- Collecting gives the rows of the relation, or an error where the relation tells of one. -/
def OpenQuery.Returns (opened : OpenQuery) (stores : Stores) (r : Relation) : Prop :=
  (∃ rows, opened.collect stores = .ok rows ∧ r.rows = rows.map (·.map .ok)) ∨
    r.Failed ∧ ∃ e, opened.collect stores = .error e

namespace OpenQuery.Returns

variable {opened : OpenQuery} {stores : Stores} {r : Relation}

theorem collect_eq_ok (h : opened.Returns stores r) (safe : ¬ r.Failed) :
    ∃ rows, opened.collect stores = .ok rows := by
  rcases h with ⟨rows, collected, _⟩ | ⟨failed, _⟩
  · exact ⟨rows, collected⟩
  · exact absurd failed safe

theorem rows_eq (h : opened.Returns stores r) {rows : List (List Value)}
    (collected : opened.collect stores = .ok rows) : r.rows = rows.map (·.map .ok) := by
  rcases h with ⟨same, again, eq⟩ | ⟨_, e, failed⟩
  · rw [collected] at again
    cases again
    exact eq
  · rw [collected] at failed
    cases failed

end OpenQuery.Returns

namespace Query

/-- All columns of some sources joined with one more table. -/
def joining (sources : List (FromItem Query)) (table : String) (alias? : Option String) (on : Tree)
    (kind : JoinType) : Query :=
  ⟨[.all], sources, [⟨kind, table, alias?, on⟩], none⟩

variable {db : Database} {sources : List (FromItem Query)} {table : String}
  {alias? : Option String} {on : Tree}

/-! ## Opening -/

theorem fieldCheck_eq {c : Cursor} {has : String → Bool} (h : ∀ name, c.has name = has name) :
    c.fieldCheck = .among has :=
  congrArg FieldCheck.among (funext h)

/-- Positioning the outer side for a tree's sake cannot fail, so the tree alone can. -/
theorem joinOn_eq_bind {outer inner : Cursor} (ho : outer.plan.Safe db.stores)
    (hi : inner.plan.Safe db.stores) (tree : Tree) (flipped : Bool) :
    Cursor.joinOn outer inner flipped (fun rows => tree.bind rows.fieldCheck) db.stores =
      tree.bind (.among fun name => outer.has name || inner.has name) >>= fun e =>
        Cursor.join outer inner e flipped db.stores := by
  obtain ⟨base, made⟩ := Cursor.join_eq_ok ho hi (.const (Value.ofBool true)) flipped
  have check : base.fieldCheck = .among fun name => outer.has name || inner.has name :=
    fieldCheck_eq fun name => by
      rw [Cursor.has, Cursor.plan_of_rewound made]
      rfl
  simp only [Cursor.joinOn, made, Checked.ok_bind, check]

theorem rewinds_of_join {outer inner c : Cursor} {e : Expr} {flipped : Bool}
    (ho : outer.plan.Safe db.stores) (hi : inner.plan.Safe db.stores)
    (h : Cursor.join outer inner e flipped db.stores = .ok c) : c.plan.Rewinds db.stores := by
  rw [Cursor.plan_of_rewound h]
  exact Plan.rewinds_join ho hi e flipped

/-- Whatever its kind, a join has the names of both sides, and nothing but its predicate is in the way of
adding it. -/
theorem addJoin_eq_bind {left : Cursor} {view : TableView} (kind : JoinType) (on : Tree)
    (safe : left.plan.Safe db.stores) (isView : db.view table alias? = .ok view) :
    ∃ rest : Expr → Checked Cursor,
      addJoin db (some left) ⟨kind, table, alias?, on⟩ =
        on.bind (.among fun name => left.has name || view.has name) >>= rest ∧
      ∀ e, ∃ c, rest e = .ok c ∧ c.plan.Rewinds db.stores := by
  have tableSafe : (Cursor.table view).plan.Safe db.stores := Plan.safe_table view
  cases kind with
  | inner =>
    obtain ⟨product, made⟩ := Cursor.product_eq_ok tableSafe safe
    have plan := Cursor.plan_of_product made
    have check : product.fieldCheck = .among fun name => left.has name || view.has name :=
      fieldCheck_eq fun name => by
        rw [Cursor.has, plan, Bool.or_comm]
        rfl
    refine ⟨fun e => .ok (product.select e), ?_, fun e => ⟨_, rfl, ?_⟩⟩
    · simp only [addJoin, isView, made, Checked.ok_bind, check]
      rfl
    · change product.plan.Rewinds db.stores
      rw [plan]
      exact (tableSafe.product safe).rewinds
  | left =>
    refine ⟨fun e => Cursor.join left (.table view) e false db.stores, ?_, fun e => ?_⟩
    · simp only [addJoin, isView, Checked.ok_bind, Cursor.leftJoin,
        joinOn_eq_bind safe tableSafe on false]
      rfl
    · obtain ⟨c, made⟩ := Cursor.join_eq_ok safe tableSafe e false
      exact ⟨c, made, rewinds_of_join safe tableSafe made⟩
  | right =>
    refine ⟨fun e => Cursor.join (.table view) left e true db.stores, ?_, fun e => ?_⟩
    · have swapped : (fun name => left.has name || view.has name) =
          fun name => (Cursor.table view).has name || left.has name :=
        funext fun name => Bool.or_comm _ _
      simp only [addJoin, isView, Checked.ok_bind, Cursor.rightJoin,
        joinOn_eq_bind tableSafe safe on true, swapped]
    · obtain ⟨c, made⟩ := Cursor.join_eq_ok tableSafe safe e true
      exact ⟨c, made, rewinds_of_join tableSafe safe made⟩

/-- Opening a join comes to the same for all kinds: the same error or the same fields. -/
theorem fields_of_joining
    (plain : ∀ source ∈ sources, ∃ name alias?, source = .table name alias? ∧
      PlainTable db name alias?) :
    ∃ fields, ∀ kind,
      (db.query (joining sources table alias? on kind)).map (·.fields) = fields := by
  have unfolded : ∀ kind, db.query (joining sources table alias? on kind) = (do
      let opened ← openSources db sources .empty
      let scope ← checkNames db opened.1 [.all] [⟨.inner, table, alias?, on⟩] none
      let rows ← build db opened.2 [.all] [⟨kind, table, alias?, on⟩] none
      return ⟨scope.outputNames [.all],
        ← (rows.project (scope.outputNames [.all])).rewound db.stores⟩) := fun kind => by
    rw [Database.query, joining, openOn]
    rfl
  simp only [unfolded]
  rcases opened : openSources db sources .empty with e | ⟨scope, cursors⟩
  · exact ⟨.error e, fun _ => rfl⟩
  simp only [Checked.ok_bind]
  rcases checked : checkNames db scope [.all] [⟨.inner, table, alias?, on⟩] none with e | scope'
  · exact ⟨.error e, fun _ => rfl⟩
  simp only [Checked.ok_bind]
  obtain ⟨views, rfl, -⟩ := openSources_eq_ok plain Scope.tidy_empty rfl opened
  have tablesSafe : ∀ c ∈ views.map Cursor.table, c.plan.Safe db.stores :=
    List.forall_mem_map.2 fun view _ => Plan.safe_table view
  obtain ⟨rows, isRows, safe⟩ := joinSources_eq_ok tablesSafe
  simp only [build, isRows, Checked.ok_bind, List.foldlM_cons, List.foldlM_nil]
  cases rows with
  | none => exact ⟨.error (.invalidQuery (.joinWithoutSource table)), fun _ => rfl⟩
  | some left =>
    obtain ⟨joined, isJoined, -⟩ := checkNames_eq_ok checked
    obtain ⟨added, isAdded, -⟩ := Checked.bind_eq_ok.1 isJoined
    obtain ⟨_, isAdded, -⟩ := Checked.bind_eq_ok.1 isAdded
    obtain ⟨view, isView, -⟩ := Scope.addTable_eq_ok isAdded
    refine ⟨(on.bind (.among fun name => left.has name || view.has name)).map
      fun _ => scope'.outputNames [.all], fun kind => ?_⟩
    obtain ⟨rest, isBind, rewinds⟩ := addJoin_eq_bind kind on (safe left rfl) isView
    rw [isBind]
    rcases on.bind (.among fun name => left.has name || view.has name) with e | e
    · rfl
    · obtain ⟨c, isRest, back⟩ := rewinds e
      obtain ⟨start, isStart⟩ :=
        Cursor.rewound_eq_ok (c := c.project (scope'.outputNames [.all])) back
      simp only [Checked.ok_bind, isRest, addComputed, pure, Except.pure, isStart]
      rfl

/-! ## Collecting -/

/-- A selection of everything has all cells of a row. -/
theorem lookup_outputNames_all {scope : Scope} (tidy : scope.Tidy) {row : List (Checked Value)}
    (noComputed : scope.heading.length = scope.sourceColumns.length)
    (width : row.length = scope.heading.length) :
    (scope.outputNames [.all]).map (Relation.lookup scope.heading row) = row := by
  rw [← selectedCells_eq tidy width, selectedCells, List.flatMap_singleton]
  exact List.take_of_length_le (by rw [width, noComputed])

/-- An opened join returns the rows of the relation that it stands for. -/
theorem returns_of_joining {kind : JoinType} {opened : OpenQuery}
    (plain : ∀ source ∈ sources, ∃ name alias?, source = .table name alias? ∧
      PlainTable db name alias?)
    (plainTable : PlainTable db table alias?)
    (opens : db.query (joining sources table alias? on kind) = .ok opened) :
    ∃ a joined, sourcesRelation db sources = .ok a ∧
      joinRelation db a ⟨kind, table, alias?, on⟩ = .ok joined ∧
      opened.Returns db.stores joined := by
  have plainQuery : Plain db (joining sources table alias? on kind) :=
    ⟨plain, List.forall_mem_singleton.2 plainTable, fun value name mem => by
      cases List.mem_singleton.1 mem⟩
  obtain ⟨opened, cursor⟩ := opened
  obtain ⟨_, _, scope, child, isOpened, isChecked, isBuilt, rfl, isRewound⟩ := query_eq_ok opens
  obtain ⟨a, joined, isSources, isJoined, width, stage, fields, own⟩ :=
    stage_of_build plainQuery isOpened isChecked isBuilt
  obtain ⟨_, isJoined, eq⟩ := Checked.bind_eq_ok.1 isJoined
  cases eq
  refine ⟨a, joined, isSources, isJoined, ?_⟩
  have mirrors : Mirrors db.stores child.plan joined := stage.rows
  have heading : joined.heading = scope.heading := stage.heading
  have unique := unique_of_mem_outputNames stage.tidy fields own
  have cells : joined.rows.map
      (fun row => (scope.outputNames [.all]).map (Relation.lookup scope.heading row)) =
        joined.rows := by
    refine (List.map_congr_left fun row mem => ?_).trans (List.map_id _)
    obtain ⟨record, _, shows⟩ := exists_of_mem_left mirrors.rows.flip mem
    exact lookup_outputNames_all stage.tidy (by rw [← heading, width]) (heading ▸ shows.width)
  have shows := heading ▸ mirrors.rows
  generalize scope.outputNames [.all] = names at unique cells isRewound
  rcases OpenQuery.collect_of_rewound ((child.project names).plan.lists db.stores) isRewound names with
    ⟨rows, collected, eq⟩ | ⟨e, failed, cause | bad⟩
  · refine .inl ⟨rows, collected, ?_⟩
    rw [← cells]
    exact rows_of_reads shows unique eq
  · exact .inr ⟨mirrors.fails e cause, e, failed⟩
  · obtain ⟨projected, hidden, bad⟩ := List.mem_map.1 bad
    obtain ⟨record, mem, rfl⟩ := List.mem_map.1 hidden
    obtain ⟨row, mem, shows⟩ := exists_of_mem_left shows mem
    obtain ⟨_, isCell⟩ := error_of_read shows unique bad
    exact .inr ⟨mirrors.logged row mem _ isCell, e, failed⟩

/-- Tables have nothing to evaluate. -/
theorem log_sourcesRelation {a : Relation}
    (plain : ∀ source ∈ sources, ∃ name alias?, source = .table name alias? ∧
      PlainTable db name alias?)
    (h : sourcesRelation db sources = .ok a) : a.log = [] := by
  induction sources generalizing a with
  | nil =>
    cases h
    rfl
  | cons source sources ih =>
    obtain ⟨name, alias?, rfl, -⟩ := plain source List.mem_cons_self
    obtain ⟨first, isFirst, h⟩ := Checked.bind_eq_ok.1 h
    obtain ⟨rest, isRest, eq⟩ := Checked.bind_eq_ok.1 h
    obtain ⟨view, -, isTable⟩ := Checked.bind_eq_ok.1 isFirst
    cases eq
    cases isTable
    have restLog := ih (fun source mem => plain source (List.mem_cons_of_mem _ mem)) isRest
    exact restLog

theorem joinLog_safe {a j : Relation} (left : a.log = []) (right : j.log = [])
    (evaluates : ∀ row ∈ (a.product j).rows,
      ∃ v, Relation.evaluate (a.heading ++ j.heading) on row = .ok v) :
    ¬ ∃ e, .error e ∈ a.joinLog j on := by
  rintro ⟨e, mem⟩
  rcases List.mem_append.1 mem with mem | mem
  · rw [Relation.product, left, right] at mem
    cases mem
  · obtain ⟨row, isRow, bad⟩ := List.mem_map.1 mem
    obtain ⟨v, isValue⟩ := evaluates row isRow
    cases isValue.symm.trans bad

end Query

/-- The three joins agree. For sources that are tables, and one more table: a query that joins them in one
of the three ways is opened with the same fields, or refused with the same error, as in the other two. The
opened joins are read to the end unless the predicate fails on some pair of rows. The inner join then has
the pairs that fulfil it; the left join has the rows of the inner join and each row of the sources without
a match once, with NULLs; the right join has the rows of the inner join and each row of the joined table
without a match once, with NULLs. -/
theorem Database.joins_agree {db : Database} {sources : List (FromItem Query)} {table : String}
    {alias? : Option String} {on : Tree}
    (plain : ∀ source ∈ sources, ∃ name alias?, source = .table name alias? ∧
      Query.PlainTable db name alias?)
    (plainTable : Query.PlainTable db table alias?) :
    (∀ kind kind',
      (db.query (Query.joining sources table alias? on kind)).map (·.fields) =
        (db.query (Query.joining sources table alias? on kind')).map (·.fields)) ∧
    ∀ inner left right,
      db.query (Query.joining sources table alias? on .inner) = .ok inner →
      db.query (Query.joining sources table alias? on .left) = .ok left →
      db.query (Query.joining sources table alias? on .right) = .ok right →
      ∃ a j, Query.sourcesRelation db sources = .ok a ∧
        Query.tableRelation db table alias? = .ok j ∧
        ((∀ row ∈ (a.product j).rows,
            ∃ v, Relation.evaluate (a.heading ++ j.heading) on row = .ok v) →
          ∃ both withLeft withRight, inner.collect db.stores = .ok both ∧
            left.collect db.stores = .ok withLeft ∧ right.collect db.stores = .ok withRight) ∧
        ∀ both withLeft withRight, inner.collect db.stores = .ok both →
          left.collect db.stores = .ok withLeft → right.collect db.stores = .ok withRight →
          (both.map (·.map .ok)).Perm
            ((a.product j).rows.filter (Relation.fulfils (a.heading ++ j.heading) on)) ∧
          (withLeft.map (·.map .ok)).Perm (both.map (·.map .ok) ++ a.leftAlone j on) ∧
          (withRight.map (·.map .ok)).Perm (both.map (·.map .ok) ++ a.rightAlone j on) := by
  refine ⟨fun kind kind' => ?_, fun inner left right openInner openLeft openRight => ?_⟩
  · obtain ⟨fields, same⟩ := Query.fields_of_joining plain
    rw [same kind, same kind']
  obtain ⟨a, _, isSources, isInner, innerRows⟩ := Query.returns_of_joining plain plainTable openInner
  obtain ⟨_, _, again, isLeft, leftRows⟩ := Query.returns_of_joining plain plainTable openLeft
  cases isSources.symm.trans again
  obtain ⟨_, _, again, isRight, rightRows⟩ := Query.returns_of_joining plain plainTable openRight
  cases isSources.symm.trans again
  obtain ⟨j, isTable, isInner⟩ := Checked.bind_eq_ok.1 isInner
  simp only [Query.joinRelation, isTable, Checked.ok_bind] at isLeft isRight
  cases isInner
  cases isLeft
  cases isRight
  refine ⟨a, j, isSources, isTable, fun evaluates => ?_,
    fun both withLeft withRight isBoth isLeft isRight => ?_⟩
  · have tableLog : j.log = [] := by
      obtain ⟨view, -, eq⟩ := Checked.bind_eq_ok.1 isTable
      cases eq
      rfl
    have safe := Query.joinLog_safe (Query.log_sourcesRelation plain isSources) tableLog evaluates
    obtain ⟨both, isBoth⟩ := innerRows.collect_eq_ok safe
    obtain ⟨withLeft, isLeft⟩ := leftRows.collect_eq_ok safe
    obtain ⟨withRight, isRight⟩ := rightRows.collect_eq_ok safe
    exact ⟨both, withLeft, withRight, isBoth, isLeft, isRight⟩
  · rw [← innerRows.rows_eq isBoth, ← leftRows.rows_eq isLeft, ← rightRows.rows_eq isRight]
    exact ⟨a.innerJoin_perm j on, a.leftJoin_perm j on, a.rightJoin_perm j on⟩

/-- The columns of the two tables are equal. -/
def Tree.sameColumn : Tree := .apply .eq [.field "t.a", .field "v.b"]

/-- The joins of two tables whose rows do not match. -/
theorem Database.joins_agree_twoTables :
    let query := Query.joining [.table "t" none] "u" (some "v") .sameColumn
    ∃ inner left right a j both withLeft withRight,
      twoTables.query (query .inner) = .ok inner ∧ twoTables.query (query .left) = .ok left ∧
      twoTables.query (query .right) = .ok right ∧
      Query.sourcesRelation twoTables [.table "t" none] = .ok a ∧
      Query.tableRelation twoTables "u" (some "v") = .ok j ∧
      inner.collect twoTables.stores = .ok both ∧ left.collect twoTables.stores = .ok withLeft ∧
      right.collect twoTables.stores = .ok withRight ∧
      (withLeft.map (·.map .ok)).Perm (both.map (·.map .ok) ++ a.leftAlone j .sameColumn) ∧
      (withRight.map (·.map .ok)).Perm (both.map (·.map .ok) ++ a.rightAlone j .sameColumn) := by
  intro query
  have plain : ∀ source ∈ ([.table "t" none] : List (FromItem Query)), ∃ name alias?,
      source = .table name alias? ∧ Query.PlainTable .twoTables name alias? :=
    List.forall_mem_singleton.2 ⟨"t", none, rfl, by decide +kernel⟩
  have plainTable : Query.PlainTable .twoTables "u" (some "v") := by decide +kernel
  have opens : ∀ kind, ∃ opened, twoTables.query (query kind) = .ok opened := by
    intro kind
    have isSome : (twoTables.query (query kind)).toOption.isSome = true := by
      cases kind <;> decide +kernel
    obtain ⟨opened, isOpened⟩ := Option.isSome_iff_exists.1 isSome
    exact ⟨opened, Checked.toOption_eq_some.1 isOpened⟩
  obtain ⟨inner, isInner⟩ := opens .inner
  obtain ⟨left, isLeft⟩ := opens .left
  obtain ⟨right, isRight⟩ := opens .right
  obtain ⟨a, j, isSources, isTable, collect, rows⟩ :=
    (joins_agree plain plainTable).2 inner left right isInner isLeft isRight
  have check : (do
      let a ← Query.sourcesRelation twoTables [.table "t" none]
      let j ← Query.tableRelation twoTables "u" (some "v")
      return (a.product j).rows.all fun row => (Relation.evaluate (a.heading ++ j.heading)
        .sameColumn row).toOption.isSome : Checked Bool).toOption = some true := by
    decide +kernel
  rw [isSources, isTable] at check
  have evaluates : ∀ row ∈ (a.product j).rows,
      ∃ v, Relation.evaluate (a.heading ++ j.heading) .sameColumn row = .ok v := by
    intro row mem
    have isSome := List.all_eq_true.1 (Option.some.inj check) row mem
    obtain ⟨v, isValue⟩ := Option.isSome_iff_exists.1 isSome
    exact ⟨v, Checked.toOption_eq_some.1 isValue⟩
  obtain ⟨both, withLeft, withRight, isBoth, hasLeft, hasRight⟩ := collect evaluates
  obtain ⟨-, leftPerm, rightPerm⟩ := rows both withLeft withRight isBoth hasLeft hasRight
  exact ⟨inner, left, right, a, j, both, withLeft, withRight, isInner, isLeft, isRight, isSources,
    isTable, isBoth, hasLeft, hasRight, leftPerm, rightPerm⟩

end RelEngine
