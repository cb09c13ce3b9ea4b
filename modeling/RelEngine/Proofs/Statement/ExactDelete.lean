import RelEngine.Proofs.Statement.ReferenceChecks
import RelEngine.Proofs.Statement.Sweep
import RelEngine.Proofs.Statement.Update

/-!
A DELETE removes exactly the rows that fulfil its condition, up to the first one on which the condition fails or
that is still needed. Whether a row is needed is asked of the table without the rows that went before it.
-/
namespace RelEngine

variable {db db' : Database} {view : TableView} {table : String} {gone : List RowId} {id : RowId}

/-! ## Rows that are gone -/

/-- The table of the view no longer has these rows, and nothing else is different. -/
structure Database.Drops (db : Database) (view : TableView) (gone : List RowId) (db' : Database) : Prop where
  tables : db'.tables = db.tables
  references : db'.references = db.references
  length : db'.stores.length = db.stores.length
  others : ∀ store, store ≠ view.store → db'.stores.rowsAt store = db.stores.rowsAt store
  rows : (view.rows db'.stores).rows.entries = (view.rows db.stores).rows.entries.filter fun e => e.1 ∉ gone
  nextId : (view.rows db'.stores).nextId = (view.rows db.stores).nextId

/-- The database without these rows of the table of the view. -/
def Database.without (db : Database) (view : TableView) (gone : List RowId) : Database :=
  gone.foldl (fun db id => db.removeRow view id) db

namespace Database

theorem without_append (db : Database) (view : TableView) (gone more : List RowId) :
    db.without view (gone ++ more) = (db.without view gone).without view more :=
  List.foldl_append

theorem Drops.cons (inside : view.store < db.stores.length) (h : (db.removeRow view id).Drops view gone db') :
    db.Drops view (id :: gone) db' := by
  have now : view.rows (db.removeRow view id).stores = (view.rows db.stores).erase id := rows_updateRows inside
  refine ⟨h.tables, h.references, h.length.trans length_updateRows, fun store differ => ?_, ?_, ?_⟩
  · exact (h.others store differ).trans (rowsAt_updateRows_of_ne differ)
  · rw [h.rows, now, RowStore.entries_erase, List.filter_filter]
    refine List.filter_congr fun e _ => ?_
    rw [← Bool.decide_and, decide_eq_decide, List.mem_cons, not_or, and_comm]
  · rw [h.nextId, now]
    rfl

theorem drops_without (inside : view.store < db.stores.length) (gone : List RowId) :
    db.Drops view gone (db.without view gone) := by
  induction gone generalizing db with
  | nil => exact ⟨rfl, rfl, rfl, fun _ _ => rfl, (List.filter_eq_self.2 fun _ _ => by simp).symm, rfl⟩
  | cons id gone ih =>
    have inside' : view.store < (db.removeRow view id).stores.length := by
      rw [removeRow, length_updateRows]
      exact inside
    exact .cons inside (ih inside')

namespace Drops

theorem find?_eq (h : db.Drops view gone db') (kept : id ∉ gone) :
    (view.rows db'.stores).find? id = (view.rows db.stores).find? id := by
  apply Option.ext
  intro row
  constructor
  · intro found
    have mem := SortedMap.mem_of_find? found
    rw [h.rows] at mem
    exact SortedMap.find?_of_mem (List.mem_filter.1 mem).1
  · intro found
    apply SortedMap.find?_of_mem
    rw [h.rows]
    exact List.mem_filter.2 ⟨SortedMap.mem_of_find? found, decide_eq_true kept⟩

/-- A row that is kept reads as before. -/
theorem read_eq (h : db.Drops view gone db') (kept : id ∉ gone) :
    view.read db'.stores (some id) = view.read db.stores (some id) :=
  TableView.read_congr (h.find?_eq kept)

theorem closed (h : db.Drops view gone db') (closed : db.Closed) : db'.Closed := by
  refine ⟨fun r mem => ?_, fun isTable => closed.bare (h.tables ▸ isTable)⟩
  rw [Links, h.tables]
  exact closed.links r (h.references ▸ mem)

theorem mem_ids (h : db.Drops view gone db') (kept : id ∉ gone) (isRow : id ∈ (view.rows db.stores).ids) :
    id ∈ (view.rows db'.stores).ids := by
  obtain ⟨row, found⟩ := RowStore.mem_ids_iff.1 isRow
  exact RowStore.mem_ids_iff.2 ⟨row, (h.find?_eq kept).trans found⟩

end Drops

/-! ## Rows that are needed -/

/-- A child row holds a value that equals the one of this row in the parent field, and the reference does not let
the row go. -/
structure Needed (db : Database) (table : String) (id : RowId) (r : Reference) : Prop where
  mem : r ∈ db.references
  isOwn : r.parentTable = table
  noAction : r.onDelete = .noAction
  isUsed : ∃ v child w, v ≠ none ∧ db.Reads table id r.parentField v ∧
    db.Reads r.childTable child r.childField w ∧ Value.Equals v w

theorem Closed.checkChildren_eq_error (closed : db.Closed) (isView : db.view table none = .ok view) {c : Column}
    (isColumn : c ∈ view.schema.columns) {v : Value} (isHeld : c.Holds v) {r : Reference}
    (mem : r ∈ db.references) (isParent : r.hasParent table c.name = true) {change : RowChange} {e : Error}
    (bad : db.checkChildren r v change = .error e) :
    v ≠ none ∧ r.onChange change = .noAction ∧ e = .foreignKeyViolation r.childTable r.childField ∧
      ∃ child w, db.Reads r.childTable child r.childField w ∧ Value.Equals v w := by
  rw [Database.checkChildren] at bad
  split at bad
  · next asked =>
    obtain ⟨found, isFound⟩ := closed.holds_child isView isColumn isHeld mem isParent
    rw [isFound] at bad
    cases found with
    | false => cases bad
    | true =>
      cases bad
      obtain ⟨child, w, reads, equals⟩ := holds_eq_true isFound
      have blocks := of_decide_eq_true (Bool.and_eq_true_iff.1 asked).2
      exact ⟨equals.ne_none.1, blocks, rfl, child, w, reads, equals⟩
  · cases bad

/-- The removal of a row is refused exactly if the row is needed. -/
theorem Closed.checkRemoval_cases (closed : db.Closed) (isView : db.view table none = .ok view)
    (isRow : id ∈ (view.rows db.stores).ids) :
    (db.checkRemoval view (db.references.filter (·.parentTable == table)) id = .ok () ∧
      ∀ r, ¬ db.Needed table id r) ∨
    ∃ r, db.Needed table id r ∧ db.checkRemoval view (db.references.filter (·.parentTable == table)) id =
      .error (.foreignKeyViolation r.childTable r.childField) := by
  cases checked : db.checkRemoval view (db.references.filter (·.parentTable == table)) id with
  | ok _ =>
    refine .inl ⟨rfl, fun r needed => ?_⟩
    obtain ⟨v, child, w, notNull, reads, isChild, equals⟩ := needed.isUsed
    obtain ⟨view', isView', _, isRead⟩ := reads
    cases isView.symm.trans isView'
    have isOwn : (r.parentTable == table) = true := beq_iff_eq.2 needed.isOwn
    have passed := Checked.forM_eq_ok checked r (List.mem_filter.2 ⟨needed.mem, isOwn⟩)
    obtain ⟨u, isRead', passed⟩ := Checked.bind_eq_ok.1 passed
    cases isRead.symm.trans isRead'
    exact checkChildren_eq_ok passed notNull needed.noAction isChild equals
  | error e =>
    obtain ⟨r, own, bad⟩ := Checked.forM_eq_error checked
    obtain ⟨mem, isOwn⟩ := List.mem_filter.1 own
    rw [beq_iff_eq] at isOwn
    obtain ⟨c, isColumn, named, v, isRead, isHeld⟩ := closed.read_parent isView mem isOwn (some id)
    rw [isRead, Checked.ok_bind] at bad
    obtain ⟨notNull, noAction, rfl, child, w, isChild, equals⟩ :=
      closed.checkChildren_eq_error isView isColumn isHeld mem (Reference.hasParent_iff.2 ⟨isOwn, named.symm⟩) bad
    have reads : db.Reads table id r.parentField v := ⟨view, isView, isRow, isRead⟩
    exact .inr ⟨r, ⟨mem, isOwn, noAction, v, child, w, notNull, reads, isChild, equals⟩, rfl⟩

/-! ## Where a DELETE stops -/

variable {filter : Option Expr} {passed rest : List RowId}

/-- At this row a DELETE stops that has come to those before it: the condition fails on it, or it is fulfilled and
the row is needed. -/
inductive StopsAt (db : Database) (table : String) (view : TableView) (filter : Option Expr)
    (before : List RowId) (id : RowId) : Error → Prop where
  | failed {e : Error} (fails : view.accepts db.stores filter id = .error e) :
      StopsAt db table view filter before id e
  | needed {r : Reference} (accepted : view.accepts db.stores filter id = .ok true)
      (isNeeded : (db.without view (view.matching db filter before)).Needed table id r) :
      StopsAt db table view filter before id (.foreignKeyViolation r.childTable r.childField)

/-- After the rows that were passed a DELETE stops at none of these. -/
def Unstopped (db : Database) (table : String) (view : TableView) (filter : Option Expr)
    (passed ids : List RowId) : Prop :=
  ∀ before id after, ids = before ++ id :: after → ∀ e, ¬ db.StopsAt table view filter (passed ++ before) id e

/-- What a DELETE comes to that goes through the rows: it removes all that match, or those before the row at
which it stops. -/
inductive Deletes (db : Database) (table : String) (view : TableView) (filter : Option Expr) :
    Checked Unit × Database → Prop where
  | all {db' : Database} (unstopped : db.Unstopped table view filter [] (view.rows db.stores).ids)
      (drops : db.Drops view (view.matching db filter (view.rows db.stores).ids) db') :
      Deletes db table view filter (.ok (), db')
  | upTo {before after : List RowId} {id : RowId} {e : Error} {db' : Database}
      (split : (view.rows db.stores).ids = before ++ id :: after)
      (unstopped : db.Unstopped table view filter [] before)
      (stops : db.StopsAt table view filter before id e)
      (drops : db.Drops view (view.matching db filter before) db') :
      Deletes db table view filter (.error e, db')

theorem unstopped_nil : db.Unstopped table view filter passed [] := by
  intro before id after split
  cases before with
  | nil => cases split
  | cons _ _ => cases split

theorem unstopped_cons (first : ∀ e, ¬ db.StopsAt table view filter passed id e)
    (later : db.Unstopped table view filter (passed ++ [id]) rest) :
    db.Unstopped table view filter passed (id :: rest) := by
  intro before other after split e
  cases before with
  | nil =>
    cases split
    rw [List.append_nil]
    exact first e
  | cons _ before =>
    cases split
    rw [List.append_cons]
    exact later before other after rfl e

section

variable {check : FieldCheck} {tree? : Option Tree} (closed : db.Closed)
  (isView : db.view table none = .ok view) (inside : view.store < db.stores.length)
  (bound : tree?.mapM (·.bind check) = .ok filter)

include closed isView inside bound

/-- One row, after those before it that match are gone. -/
theorem visit_cases (fresh : id ∉ passed) (isRow : id ∈ (view.rows db.stores).ids) :
    (∃ e, db.StopsAt table view filter passed id e ∧
      (view.visit filter (db.references.filter (·.parentTable == table)) id).runFrom
          (db.without view (view.matching db filter passed)) =
        (.error e, db.without view (view.matching db filter passed))) ∨
    (∀ e, ¬ db.StopsAt table view filter passed id e) ∧
      (view.visit filter (db.references.filter (·.parentTable == table)) id).runFrom
          (db.without view (view.matching db filter passed)) =
        (.ok (), db.without view (view.matching db filter (passed ++ [id]))) := by
  have drops := drops_without inside (view.matching db filter passed)
  have kept : id ∉ view.matching db filter passed := fun mem => fresh (TableView.mem_matching.1 mem).1
  have longer : view.matching db filter (passed ++ [id]) =
      view.matching db filter passed ++ view.matching db filter [id] := List.filter_append _ _
  rw [TableView.runFrom_visit, TableView.accepts_eq bound (drops.read_eq kept), longer]
  cases accepted : view.accepts db.stores filter id with
  | error e => exact .inl ⟨e, .failed accepted, rfl⟩
  | ok b =>
    cases b with
    | false =>
      have none : view.matching db filter [id] = [] := TableView.matching_cons_false accepted
      rw [none, List.append_nil]
      refine .inr ⟨fun e stops => ?_, rfl⟩
      cases stops with
      | failed fails => cases accepted.symm.trans fails
      | needed isAccepted _ => cases accepted.symm.trans isAccepted
    | true =>
      have own : view.matching db filter [id] = [id] := TableView.matching_cons_true accepted
      rw [own, ← drops.references]
      rcases (drops.closed closed).checkRemoval_cases ((view_congr drops.tables).trans isView)
        (drops.mem_ids kept isRow) with ⟨passes, notNeeded⟩ | ⟨r, isNeeded, refused⟩
      · rw [passes]
        refine .inr ⟨fun e stops => ?_, congrArg (Prod.mk _) (without_append db view _ [id]).symm⟩
        cases stops with
        | failed fails => cases accepted.symm.trans fails
        | needed _ isNeeded => exact notNeeded _ isNeeded
      · rw [refused]
        exact .inl ⟨_, .needed accepted isNeeded, rfl⟩

/-- Rows in turn, up to the first one at which the DELETE stops. -/
theorem visits_cases (distinct : (passed ++ rest).Nodup) (areRows : ∀ id ∈ rest, id ∈ (view.rows db.stores).ids) :
    db.Unstopped table view filter passed rest ∧
      (rest.forM (view.visit filter (db.references.filter (·.parentTable == table)))).runFrom
          (db.without view (view.matching db filter passed)) =
        (.ok (), db.without view (view.matching db filter (passed ++ rest))) ∨
    ∃ before id after e, rest = before ++ id :: after ∧ db.Unstopped table view filter passed before ∧
      db.StopsAt table view filter (passed ++ before) id e ∧
      (rest.forM (view.visit filter (db.references.filter (·.parentTable == table)))).runFrom
          (db.without view (view.matching db filter passed)) =
        (.error e, db.without view (view.matching db filter (passed ++ before))) := by
  induction rest generalizing passed with
  | nil =>
    rw [List.append_nil]
    exact .inl ⟨unstopped_nil, rfl⟩
  | cons id rest ih =>
    have fresh : id ∉ passed := fun mem => (List.nodup_append.1 distinct).2.2 id mem id List.mem_cons_self rfl
    rw [List.append_cons] at distinct
    rw [List.forM]
    rcases visit_cases closed isView inside bound fresh (areRows id List.mem_cons_self) with
      ⟨e, stops, stopped⟩ | ⟨first, visited⟩
    · rw [Move.runFrom_bind_error stopped]
      refine .inr ⟨[], id, rest, e, rfl, unstopped_nil, ?_, ?_⟩
      · rw [List.append_nil]
        exact stops
      · rw [List.append_nil]
    · rw [Move.runFrom_bind_ok visited, List.append_cons passed id rest]
      rcases ih distinct (fun id mem => areRows id (List.mem_cons_of_mem _ mem)) with
        ⟨later, done⟩ | ⟨before, other, after, e, rfl, later, stops, stopped⟩
      · exact .inl ⟨unstopped_cons first later, done⟩
      · rw [← List.append_cons passed id before] at stops stopped
        exact .inr ⟨id :: before, other, after, e, rfl, unstopped_cons first later, stops, stopped⟩

end

/-- A DELETE from a table that is there, with a condition that can be bound to its fields, removes the matching
rows up to the first one at which it stops; otherwise it is refused and changes nothing. A pass of a cursor under
which rows disappear comes to the same.

Columns are declared with bare names and, strings apart, with the size of their type. -/
theorem Reached.delete_exact (reached : db.Reached fun _ s => s.Declares Column.Regular) (s : Delete) :
    s.sweep.runFrom db = db.execute (.delete s) ∧
    ((∃ e, db.execute (.delete s) = (.error e, db) ∧ (db.view s.table none = .error e ∨
      ∃ view, db.view s.table none = .ok view ∧ s.filter.mapM (·.bind view.fieldCheck) = .error e)) ∨
    ∃ view filter, db.view s.table none = .ok view ∧ s.filter.mapM (·.bind view.fieldCheck) = .ok filter ∧
      (∀ id, view.accepts db.stores filter id = .ok true ↔
        Tree.verdict? s.filter (view.read db.stores (some id)) = some true) ∧
      db.Deletes s.table view filter (db.execute (.delete s))) := by
  refine ⟨s.runFrom_sweep reached.placed, ?_⟩
  rcases s.run_cases db with ⟨e, refused, -, cause⟩ | ⟨view, filter, isView, bound, run, -⟩
  · exact .inl ⟨e, refused, cause⟩
  · right
    have inside := ((reached.laid fun _ regular => regular.sized).fits reached.placed isView).inside
    refine ⟨view, filter, isView, bound, fun id => TableView.accepts_eq_ok bound, ?_⟩
    have distinct : ([] ++ (view.rows db.stores).ids).Nodup := SortedMap.keys_nodup _
    rcases visits_cases reached.closed_of_regular isView inside bound distinct fun _ mem => mem with
      ⟨unstopped, done⟩ | ⟨before, id, after, e, split, unstopped, stops, stopped⟩
    · rw [show db.execute (.delete s) = _ from run.trans done]
      exact .all unstopped (drops_without inside _)
    · rw [show db.execute (.delete s) = _ from run.trans stopped]
      exact .upTo split unstopped stops (drops_without inside _)

end Database

/-- Three nodes, each linked to the next one, and a mark on the last. -/
def linkedNodes : List Statement :=
  [.createTable ⟨"n", [.plain "id" .int 0, .plain "next" .int 0], [⟨"next", "n", "id", .noAction, .noAction⟩]⟩,
    .insert ⟨"n", some ["id"], [[.const (some (.int 1))], [.const (some (.int 2))], [.const (some (.int 3))]]⟩,
    .update ⟨"n", [("next", .apply .plus [.field "id", .const (some (.int 1))])],
      some (.apply .lt [.field "id", .const (some (.int 3))])⟩,
    .createTable ⟨"m", [.plain "node" .int 0], [⟨"node", "n", "id", .noAction, .noAction⟩]⟩,
    .insert ⟨"m", none, [[.const (some (.int 3))]]⟩]

def Delete.nodes : Delete := ⟨"n", some (.apply .gt [.field "id", .const (some (.int 0))])⟩

/-- Each node but the last is gone when the one that it is linked to is looked at. -/
theorem Database.delete_exact_nodes :
    let db := afterAll linkedNodes
    (∃ view filter, db.view "n" none = .ok view ∧ db.Deletes "n" view filter (db.execute (.delete .nodes))) ∧
      (db.execute (.delete .nodes)).1 = .error (.foreignKeyViolation "m" "node") ∧
      (db.execute (.delete .nodes)).2.listRows "n" = .ok [[.ok (some (.int 3)), .ok none]] := by
  have regular : ∀ s ∈ linkedNodes, s.Declares Column.Regular := by decide +kernel
  have reached : (afterAll linkedNodes).Reached fun _ s => s.Declares Column.Regular :=
    reached_afterAll fun s mem _ => regular s mem
  have before : (afterAll linkedNodes).rowCount "n" = .ok 3 := by decide +kernel
  have result : ((afterAll linkedNodes).execute (.delete .nodes)).1 =
      .error (.foreignKeyViolation "m" "node") := by decide +kernel
  have after : ((afterAll linkedNodes).execute (.delete .nodes)).2.listRows "n" =
      .ok [[.ok (some (.int 3)), .ok none]] := by decide +kernel
  have count : ((afterAll linkedNodes).execute (.delete .nodes)).2.rowCount "n" = .ok 1 := by decide +kernel
  rcases (reached.delete_exact .nodes).2 with ⟨e, refused, -⟩ | ⟨view, filter, isView, -, -, deletes⟩
  · have unchanged : ((afterAll linkedNodes).execute (.delete .nodes)).2 = afterAll linkedNodes := by rw [refused]
    rw [unchanged, before] at count
    cases count
  · exact ⟨⟨view, filter, isView, deletes⟩, result, after⟩

/-- A condition on a field that the table does not have. -/
def Delete.unbound : Delete := ⟨"t", some (.apply .eq [.field "b", .const (some (.int 1))])⟩

/-- Such a DELETE is refused also where there is no row at which it could stop. -/
theorem Database.delete_unbound_refused :
    let db := afterAll [.createTable ⟨"t", [.plain "a" .int 0], []⟩]
    db.Reached (fun _ s => s.Declares Column.Regular) ∧ db.rowCount "t" = .ok 0 ∧
      (db.execute (.delete .unbound)).1 = .error (.fieldNotFound "b") := by
  refine ⟨reached_afterAll fun s mem _ => ?_, by decide +kernel, by decide +kernel⟩
  cases List.mem_singleton.1 mem
  decide +kernel

end RelEngine
