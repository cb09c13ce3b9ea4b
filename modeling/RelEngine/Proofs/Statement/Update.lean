import Mathlib.Data.List.Pairwise
import RelEngine.Proofs.Statement.Insert
import RelEngine.Proofs.Tree.Storeless
import RelEngine.Statement.Update

/-!
An UPDATE writes only values that were checked for the field and the row that they are written to.

The values are computed first, and which rows match is asked a second time while they are written. As a
row is not written before it is asked about, both times the same rows match.
-/
namespace RelEngine

/-! ## New values -/

variable {db db' : Database} {view : TableView} {table : String} {filter : Option Expr}
  {assignments : List Assignment} {id : RowId}

/-- What was looked at before a new value was accepted: the old value of the field, the constraints if the
new value differs from it, and the values that the same statement gave the field before. -/
theorem Assignment.newValue_eq_ok {a : Assignment} {earlier : List Value} {v : Value}
    (h : a.newValue db view table id earlier = .ok v) :
    ∃ raw current, a.value.eval db.stores (view.read db.stores (some id)) = .ok raw ∧
      a.column.normalize raw = .ok v ∧ view.read db.stores (some id) a.column.name = .ok current ∧
      (Value.identical v current = true ∨ db.checkUnique table a.column v = .ok () ∧
        db.checkParents table a.column.name v = .ok () ∧
        (db.references.filter (·.hasParent table a.column.name)).forM
          (fun r => db.checkChildren r current .update) = .ok ()) ∧
      (a.column.unique && !v.isNull && earlier.any (Value.identical · v)) = false := by
  obtain ⟨raw, isRaw, h⟩ := Checked.bind_eq_ok.1 h
  obtain ⟨value, isValue, h⟩ := Checked.bind_eq_ok.1 h
  obtain ⟨current, isCurrent, h⟩ := Checked.bind_eq_ok.1 h
  have last : ∀ {c : Bool} {e : Error},
      (if c then (do throw e; pure value) else pure value : Checked Value) = .ok v →
      value = v ∧ c = false := by
    intro c e h
    cases c with
    | true => exact nomatch h
    | false => exact ⟨Except.ok.inj h, rfl⟩
  simp only at h
  split at h
  · obtain ⟨⟨⟩, unique, h⟩ := Checked.bind_eq_ok.1 h
    obtain ⟨⟨⟩, parents, h⟩ := Checked.bind_eq_ok.1 h
    obtain ⟨⟨⟩, children, h⟩ := Checked.bind_eq_ok.1 h
    obtain ⟨rfl, unused⟩ := last h
    exact ⟨raw, current, isRaw, isValue, isCurrent, .inr ⟨unique, parents, children⟩, unused⟩
  · next same =>
    obtain ⟨rfl, unused⟩ := last h
    rw [Bool.not_eq_true, Bool.not_eq_false'] at same
    exact ⟨raw, current, isRaw, isValue, isCurrent, .inl same, unused⟩

theorem Assignment.permits {a : Assignment} {earlier : List Value} {v : Value}
    (isView : db.view table none = .ok view)
    (h : a.newValue db view table id earlier = .ok v) : db.Permits table id a.column.name v := by
  intro old reads
  obtain ⟨view', isView', mem, isRead⟩ := reads
  rw [isView] at isView'
  cases isView'
  obtain ⟨_, current, _, _, isCurrent, checked, _⟩ := newValue_eq_ok h
  rw [isRead] at isCurrent
  cases isCurrent
  refine checked.imp_right ?_
  rintro ⟨_, parents, children⟩
  refine ⟨fun notNull r mem isChild => ?_, fun notNull r mem isParent noAction id w reads => ?_⟩
  · exact Database.checkParents_eq_ok parents notNull mem isChild
  · have checked := Checked.forM_eq_ok children r (List.mem_filter.2 ⟨mem, isParent⟩)
    exact Database.checkChildren_eq_ok checked notNull noAction reads

/-- Each value of a new row was computed for the assignment at its place. -/
theorem Database.newRow_eq_ok {earlier : List (List Value)} {row : List Value}
    (h : db.newRow view table assignments earlier id = .ok row) {i : Nat} {v : Value}
    (isValue : row[i]? = some v) : ∃ a, assignments[i]? = some a ∧
      a.newValue db view table id (earlier.map (·.getD i none)) = .ok v := by
  have same := congrArg (fun results => results[i]?) (Checked.mapM_eq_ok.1 h)
  simp only [List.getElem?_map, List.getElem?_zipIdx, isValue, Option.map_some] at same
  cases isAssignment : assignments[i]? with
  | none =>
    rw [isAssignment] at same
    exact nomatch same
  | some a =>
    rw [isAssignment] at same
    exact ⟨a, rfl, by simpa [Assignment.newValue] using same⟩

theorem Database.length_newRow {earlier : List (List Value)} {row : List Value}
    (h : db.newRow view table assignments earlier id = .ok row) : assignments.length = row.length := by
  have length := Checked.length_of_mapM h
  rwa [List.length_zipIdx] at length

/-- The rows that match a condition. -/
def TableView.matching (view : TableView) (db : Database) (filter : Option Expr) (ids : List RowId) :
    List RowId :=
  ids.filter fun id => view.accepts db.stores filter id = .ok true

theorem TableView.mem_matching {ids : List RowId} :
    id ∈ view.matching db filter ids ↔ id ∈ ids ∧ view.accepts db.stores filter id = .ok true := by
  rw [matching, List.mem_filter, decide_eq_true_iff]

theorem TableView.matching_cons_true {ids : List RowId}
    (h : view.accepts db.stores filter id = .ok true) :
    view.matching db filter (id :: ids) = id :: view.matching db filter ids := by
  rw [matching, List.filter_cons, if_pos (by simp [h])]
  rfl

theorem TableView.matching_cons_false {ids : List RowId}
    (h : view.accepts db.stores filter id = .ok false) :
    view.matching db filter (id :: ids) = view.matching db filter ids := by
  rw [matching, List.filter_cons, if_neg (by simp [h])]
  rfl

/-- Whether a row matches was answered for each row, and the rows that match got new values in their
order. -/
structure Database.Computed (db : Database) (view : TableView) (table : String) (filter : Option Expr)
    (assignments : List Assignment) (ids : List RowId) (rows : List (List Value)) : Prop where
  answers : ∀ id ∈ ids, ∃ b, view.accepts db.stores filter id = .ok b
  rows : List.Forall₂ (fun id row => ∃ earlier, db.newRow view table assignments earlier id = .ok row)
    (view.matching db filter ids) rows

/-- Each of the rows was computed with all those in view that the statement had before it. -/
theorem Database.computed_foldlM {ids : List RowId} {earlier rows : List (List Value)}
    (h : ids.foldlM (fun earlier id => do
      if ← view.accepts db.stores filter id then
        return earlier ++ [← db.newRow view table assignments earlier id]
      else return earlier) earlier = .ok rows) :
    ∃ new, rows = earlier ++ new ∧ db.Computed view table filter assignments ids new ∧
      (∀ e ∈ (view.matching db filter ids).zip new, ∃ before, earlier ⊆ before ∧
        db.newRow view table assignments before e.1 = .ok e.2) ∧
      ((view.matching db filter ids).zip new).Pairwise fun e e' => ∃ before, e.2 ∈ before ∧
        db.newRow view table assignments before e'.1 = .ok e'.2 := by
  induction ids generalizing earlier with
  | nil =>
    cases h
    exact ⟨[], (List.append_nil _).symm, ⟨nofun, .nil⟩, nofun, .nil⟩
  | cons id ids ih =>
    obtain ⟨next, isNext, h⟩ := Checked.bind_eq_ok.1 h
    obtain ⟨b, answer, isNext⟩ := Checked.bind_eq_ok.1 isNext
    obtain ⟨new, rfl, computed, since, apart⟩ := ih h
    have answers : ∀ other ∈ id :: ids, ∃ b, view.accepts db.stores filter other = .ok b := by
      intro other mem
      rcases List.mem_cons.1 mem with rfl | mem
      · exact ⟨b, answer⟩
      · exact computed.answers other mem
    cases b with
    | true =>
      obtain ⟨row, isRow, eq⟩ := Checked.bind_eq_ok.1 isNext
      cases eq
      refine ⟨row :: new, by rw [List.append_assoc]; rfl, ?_⟩
      rw [TableView.matching_cons_true answer, List.zip_cons_cons]
      refine ⟨⟨answers, ?_⟩, ?_, List.pairwise_cons.2 ⟨?_, apart⟩⟩
      · rw [TableView.matching_cons_true answer]
        exact .cons ⟨earlier, isRow⟩ computed.rows
      · intro e mem
        rcases List.mem_cons.1 mem with rfl | mem
        · exact ⟨earlier, List.Subset.refl _, isRow⟩
        · obtain ⟨before, more, isNew⟩ := since e mem
          exact ⟨before, List.Subset.trans (List.subset_append_left _ _) more, isNew⟩
      · intro e mem
        obtain ⟨before, more, isNew⟩ := since e mem
        exact ⟨before, more (List.mem_append_right _ (List.mem_singleton_self row)), isNew⟩
    | false =>
      cases isNext
      refine ⟨new, rfl, ?_⟩
      rw [TableView.matching_cons_false answer]
      refine ⟨⟨answers, ?_⟩, since, apart⟩
      rw [TableView.matching_cons_false answer]
      exact computed.rows

theorem Database.newRows_eq_ok {rows : List (List Value)}
    (h : db.newRows view table filter assignments = .ok rows) :
    db.Computed view table filter assignments (view.rows db.stores).ids rows := by
  obtain ⟨new, rfl, computed, _⟩ := computed_foldlM h
  exact computed

/-- The two new rows hold no equal values for a unique column. -/
def Assignment.Apart (assignments : List Assignment) (row row' : List Value) : Prop :=
  ∀ (i : Nat) (a : Assignment) (v v' : Value), assignments[i]? = some a → a.column.unique = true →
    row[i]? = some v → row'[i]? = some v' → ¬ Value.Equals v v'

theorem Assignment.Apart.symm {row row' : List Value} (h : Apart assignments row row') :
    Apart assignments row' row := by
  intro i a v v' isAssignment unique isValue isValue' equals
  exact h i a v' v isAssignment unique isValue' isValue equals.symm

/-- A row that is computed with another one in view is apart from it. -/
theorem Database.newRow_apart {before : List (List Value)} {row row' : List Value}
    (h : db.newRow view table assignments before id = .ok row') (earlier : row ∈ before) :
    Assignment.Apart assignments row row' := by
  intro i a v v' isAssignment unique isValue isValue' equals
  obtain ⟨a', isAssignment', isNew⟩ := newRow_eq_ok h isValue'
  cases isAssignment.symm.trans isAssignment'
  obtain ⟨_, _, _, _, _, _, unused⟩ := Assignment.newValue_eq_ok isNew
  have found : (before.map (·.getD i none)).any (Value.identical · v') = true := by
    rw [List.any_map, List.any_eq_true]
    refine ⟨row, earlier, ?_⟩
    rw [Function.comp_apply, List.getD_eq_getElem?_getD, isValue]
    exact equals.identical
  have notNull : v'.isNull = false := by
    cases v' with
    | none => exact absurd rfl equals.ne_none.2
    | some _ => rfl
  rw [unique, notNull, found] at unused
  exact nomatch unused

theorem Database.newRows_apart {rows : List (List Value)}
    (h : db.newRows view table filter assignments = .ok rows) :
    ((view.matching db filter (view.rows db.stores).ids).zip rows).Pairwise fun e e' =>
      Assignment.Apart assignments e.2 e'.2 := by
  obtain ⟨new, rfl, _, _, apart⟩ := computed_foldlM h
  exact apart.imp fun ⟨_, earlier, isRow⟩ => newRow_apart isRow earlier

/-! ## Writing -/

/-- What a condition says of a row, if it has a value there. Without a condition every row matches. -/
def Tree.verdict? (tree? : Option Tree) (row : String → Checked Value) : Option Bool :=
  match tree? with
  | none => some true
  | some tree => (tree.value row).toOption.map (·.isTrue)

/-- Whether a row matches is what the condition says of what is read from it. -/
theorem TableView.accepts_eq_ok {stores : Stores} {check : FieldCheck} {tree? : Option Tree}
    (bound : tree?.mapM (·.bind check) = .ok filter) {b : Bool} :
    view.accepts stores filter id = .ok b ↔
      Tree.verdict? tree? (view.read stores (some id)) = some b := by
  cases tree? with
  | none =>
    cases bound
    exact ⟨fun h => congrArg some (Except.ok.inj h), fun h => congrArg Except.ok (Option.some.inj h)⟩
  | some tree =>
    obtain ⟨e, isBound, eq⟩ := Checked.bind_eq_ok.1 bound
    cases eq
    rw [Tree.verdict?, ← Tree.toOption_eval_bind tree isBound fun _ _ => rfl, ← Checked.toOption_eq_some,
      accepts, Checked.toOption_bind, Option.map_eq_bind]
    rfl

/-- It depends on nothing else, so a row that reads the same matches the same. -/
theorem TableView.accepts_eq {stores stores' : Stores} {check : FieldCheck} {tree? : Option Tree}
    (bound : tree?.mapM (·.bind check) = .ok filter)
    (same : view.read stores' (some id) = view.read stores (some id)) :
    view.accepts stores' filter id = view.accepts stores filter id := by
  cases tree? with
  | none =>
    cases bound
    rfl
  | some tree =>
    obtain ⟨e, isBound, eq⟩ := Checked.bind_eq_ok.1 bound
    cases eq
    rw [accepts, accepts, same, tree.storeless_bind isBound stores' stores]

namespace TableView

variable {columns : List Column} {ids : List RowId} {row : List Value} {rows : List (List Value)}

theorem runFrom_writeRows_cons (view : TableView) (filter : Option Expr) (columns : List Column) (id : RowId)
    (ids : List RowId) (rows : List (List Value)) (db : Database) :
    (view.writeRows filter columns (id :: ids) rows).runFrom db =
      match view.accepts db.stores filter id, rows with
      | .error e, _ => (.error e, db)
      | .ok false, rows => (view.writeRows filter columns ids rows).runFrom db
      | .ok true, [] => (.ok (), db)
      | .ok true, row :: rows =>
        (view.setAll id (columns.zip row) >>= fun _ => view.writeRows filter columns ids rows).runFrom db := by
  rw [writeRows.eq_def]
  refine (Move.runFrom_bind_ok (Move.runFrom_get db)).trans ?_
  rw [Move.runFrom_bind, Move.runFrom_lift]
  rcases view.accepts db.stores filter id with _ | accepted
  · rfl
  cases accepted with
  | false => rfl
  | true =>
    cases rows with
    | nil => rfl
    | cons row rows => rfl

/-- The writes that give each of some rows its new values. -/
def rowWrites (columns : List Column) (ids : List RowId) (rows : List (List Value)) : List Write :=
  (ids.zip rows).flatMap fun (id, row) => (columns.zip row).map fun (c, v) => ⟨id, c, v⟩

theorem mem_rowWrites {w : Write} (mem : w ∈ rowWrites columns ids rows) :
    ∃ row, (w.id, row) ∈ ids.zip rows ∧ (w.column, w.value) ∈ columns.zip row := by
  obtain ⟨⟨id, row⟩, inRows, mem⟩ := List.mem_flatMap.1 mem
  obtain ⟨e, inRow, rfl⟩ := List.mem_map.1 mem
  exact ⟨row, inRows, inRow⟩

theorem mem_assignedWrites {w : Write}
    (mem : w ∈ rowWrites (assignments.map (·.column)) ids rows) :
    ∃ (row : List Value) (i : Nat) (a : Assignment), (w.id, row) ∈ ids.zip rows ∧
      assignments[i]? = some a ∧ a.column = w.column ∧ row[i]? = some w.value := by
  obtain ⟨row, inRows, inRow⟩ := mem_rowWrites mem
  obtain ⟨i, isPair⟩ := List.mem_iff_getElem?.1 inRow
  obtain ⟨isColumn, isValue⟩ := List.getElem?_zip_eq_some.1 isPair
  rw [List.getElem?_map, Option.map_eq_some_iff] at isColumn
  obtain ⟨a, isAssignment, isOwn⟩ := isColumn
  exact ⟨row, i, a, inRows, isAssignment, isOwn, isValue⟩

/-- The second pass over the rows. So far only rows that were passed have new values; those ahead match
as they did in the first pass, so each gets the values that were computed for it. -/
theorem writeRows_eq {check : FieldCheck} {tree? : Option Tree} (fits : view.Fits db)
    (inSchema : ∀ c ∈ columns, c ∈ view.schema.columns)
    (bound : tree?.mapM (·.bind check) = .ok filter) (nodup : ids.Nodup)
    (answers : ∀ id ∈ ids, ∃ b, view.accepts db.stores filter id = .ok b)
    (soFar : Rewrites view (fun id _ _ => id ∉ ids) db db') :
    (view.writeRows filter columns ids rows).runFrom db' =
      (view.writeAll (rowWrites columns (view.matching db filter ids) rows)).runFrom db' := by
  induction ids generalizing rows db' with
  | nil => rfl
  | cons id ids ih =>
    obtain ⟨fresh, nodup⟩ := List.nodup_cons.1 nodup
    have ahead : ∀ other ∈ ids, ∃ b, view.accepts db.stores filter other = .ok b :=
      fun other mem => answers other (List.mem_cons_of_mem _ mem)
    have passed : Rewrites view (fun id _ _ => id ∉ ids) db db' :=
      soFar.weaken fun _ _ _ h mem => h (List.mem_cons_of_mem _ mem)
    obtain ⟨b, answer⟩ := answers id List.mem_cons_self
    have untouched : view.read db'.stores (some id) = view.read db.stores (some id) :=
      soFar.read_eq fun _ _ h => h List.mem_cons_self
    rw [runFrom_writeRows_cons, (accepts_eq bound untouched).trans answer]
    cases b with
    | false =>
      rw [matching_cons_false answer]
      exact ih nodup ahead passed
    | true =>
      rw [matching_cons_true answer]
      cases rows with
      | nil => rfl
      | cons row rows =>
        change (view.setAll id (columns.zip row) >>= fun _ =>
            view.writeRows filter columns ids rows).runFrom db' =
          (view.writeAll ((columns.zip row).map (fun e => ⟨id, e.1, e.2⟩) ++
            rowWrites columns (view.matching db filter ids) rows)).runFrom db'
        rw [writeAll_append, setAll_eq, Move.runFrom_bind, Move.runFrom_bind]
        have written : Rewrites view (fun id _ _ => id ∉ ids) db'
            ((view.writeAll ((columns.zip row).map fun e => ⟨id, e.1, e.2⟩)).runFrom db').2 := by
          refine .writeAll (soFar.fits fits) (fun w mem => ?_) fun w mem => ?_
          · obtain ⟨e, inZip, rfl⟩ := List.mem_map.1 mem
            exact inSchema _ (List.of_mem_zip inZip).1
          · obtain ⟨e, inZip, rfl⟩ := List.mem_map.1 mem
            exact fresh
        generalize (view.writeAll _).runFrom db' = result at written ⊢
        obtain ⟨_ | _, t⟩ := result
        · rfl
        · exact ih nodup ahead (passed.trans written)

end TableView

/-- Each write gives an assigned field the value that was computed for it. -/
theorem Database.newValue_of_mem_rowWrites {rows : List (List Value)}
    (isRows : db.newRows view table filter assignments = .ok rows) {w : Write}
    (mem : w ∈ TableView.rowWrites (assignments.map (·.column))
      (view.matching db filter (view.rows db.stores).ids) rows) :
    ∃ a ∈ assignments, ∃ earlier, a.column = w.column ∧
      a.newValue db view table w.id earlier = .ok w.value := by
  obtain ⟨row, i, a, inRows, isAssignment, isColumn, isValue⟩ := TableView.mem_assignedWrites mem
  obtain ⟨earlier, isRow⟩ := List.forall₂_zip (newRows_eq_ok isRows).rows inRows
  obtain ⟨a', isAssignment', isNew⟩ := newRow_eq_ok isRow isValue
  cases isAssignment.symm.trans isAssignment'
  exact ⟨a, List.mem_of_getElem? isAssignment, _, isColumn, isNew⟩

/-- There is one for each assignment in each row that matches. -/
theorem Database.exists_rowWrite {rows : List (List Value)}
    (isRows : db.newRows view table filter assignments = .ok rows)
    (isMatch : id ∈ view.matching db filter (view.rows db.stores).ids) {a : Assignment}
    (isAssigned : a ∈ assignments) :
    ∃ w ∈ TableView.rowWrites (assignments.map (·.column))
        (view.matching db filter (view.rows db.stores).ids) rows, w.id = id ∧ w.column = a.column := by
  have computed := (newRows_eq_ok isRows).rows
  obtain ⟨row, inRows⟩ := exists_mem_zip (Nat.le_of_eq computed.length_eq) isMatch
  obtain ⟨earlier, isRow⟩ := List.forall₂_zip computed inRows
  have length : (assignments.map (·.column)).length ≤ row.length := by
    rw [List.length_map, length_newRow isRow]
  obtain ⟨v, inRow⟩ := exists_mem_zip length (List.mem_map_of_mem isAssigned)
  exact ⟨⟨id, a.column, v⟩, List.mem_flatMap.2 ⟨_, inRows, List.mem_map.2 ⟨_, inRow, rfl⟩⟩, rfl, rfl⟩

/-- What an UPDATE is going to write, as it follows from the database before it. -/
def Update.writes (s : Update) (db : Database) : Checked (List Write) := do
  let columns ← (← db.schema s.table).assigned (s.assignments.map (·.1))
  let view ← db.view s.table none
  let filter ← s.filter.mapM (·.bind view.fieldCheck)
  let values ← s.assignments.mapM fun a => a.2.bind view.fieldCheck
  let assignments := (columns.zip values).map fun (column, value) => Assignment.mk column value
  let rows ← db.newRows view s.table filter assignments
  return TableView.rowWrites columns (view.matching db filter (view.rows db.stores).ids) rows

namespace Update

variable {s : Update}

/-- The condition and the assignments of an UPDATE, bound to the columns of its table. -/
structure Bound (s : Update) (view : TableView) (filter : Option Expr) (assignments : List Assignment) :
    Prop where
  condition : s.filter.mapM (·.bind view.fieldCheck) = .ok filter
  assigned : List.Forall₂
    (fun (a : Assignment) e => a.column.name = e.1 ∧ e.2.bind view.fieldCheck = .ok a.value)
    assignments s.assignments
  distinct : (s.assignments.map (·.1)).Nodup
  inSchema : ∀ a ∈ assignments, a.column ∈ view.schema.columns

theorem Bound.names {filter : Option Expr} (h : s.Bound view filter assignments) :
    assignments.map (·.column.name) = s.assignments.map (·.1) := by
  rw [← List.forall₂_eq_eq_eq, List.forall₂_map_left_iff, List.forall₂_map_right_iff]
  exact h.assigned.imp fun _ _ bound => bound.1

/-- What the planned writes come from: the assignments, each for a column of its own, and the new rows. -/
theorem writes_eq_ok {writes : List Write} (h : s.writes db = .ok writes) :
    ∃ view filter assignments rows, db.view s.table none = .ok view ∧
      s.Bound view filter assignments ∧ db.newRows view s.table filter assignments = .ok rows ∧
      writes = TableView.rowWrites (assignments.map (·.column))
        (view.matching db filter (view.rows db.stores).ids) rows := by
  obtain ⟨schema, isSchema, h⟩ := Checked.bind_eq_ok.1 h
  obtain ⟨columns, isColumns, h⟩ := Checked.bind_eq_ok.1 h
  obtain ⟨view, isView, h⟩ := Checked.bind_eq_ok.1 h
  obtain ⟨filter, isFilter, h⟩ := Checked.bind_eq_ok.1 h
  obtain ⟨values, isValues, h⟩ := Checked.bind_eq_ok.1 h
  obtain ⟨rows, isRows, h⟩ := Checked.bind_eq_ok.1 h
  cases h
  obtain ⟨names, inSchema⟩ := Schema.targets_go_eq_ok isColumns
  rw [← Database.schema_of_view isSchema isView] at inSchema
  have sameLength : columns.length = values.length := by
    have byNames := congrArg List.length names
    rw [List.length_map, List.length_map] at byNames
    exact byNames.trans (Checked.length_of_mapM isValues)
  have sameColumns : (((columns.zip values).map fun x => Assignment.mk x.1 x.2).map (·.column)) =
      columns := by
    rw [List.map_map]
    exact List.map_fst_zip (Nat.le_of_eq sameLength)
  refine ⟨view, filter, _, rows, isView, ⟨isFilter, ?_, Schema.nodup_of_targets_go isColumns, ?_⟩, isRows,
    by rw [sameColumns]⟩
  · rw [List.forall₂_map_left_iff]
    rw [← List.forall₂_eq_eq_eq, List.forall₂_map_left_iff, List.forall₂_map_right_iff] at names
    exact forall₂_zip_left names (Checked.forall₂_of_mapM isValues).flip
  · intro a mem
    exact inSchema _ (sameColumns ▸ List.mem_map_of_mem mem)

/-- A planned write gives an assigned field a value that was computed for it. -/
theorem assignment_of_mem_writes (isView : db.view s.table none = .ok view) {writes : List Write}
    (h : s.writes db = .ok writes) {w : Write} (mem : w ∈ writes) :
    ∃ (a : Assignment) (earlier : List Value), a.column = w.column ∧ a.column ∈ view.schema.columns ∧
      a.column.name ∈ s.assignments.map (·.1) ∧
      a.newValue db view s.table w.id earlier = .ok w.value := by
  obtain ⟨view', filter, assignments, rows, isView', bound, isRows, rfl⟩ := writes_eq_ok h
  cases isView.symm.trans isView'
  obtain ⟨a, isMem, earlier, isColumn, isNew⟩ := Database.newValue_of_mem_rowWrites isRows mem
  exact ⟨a, earlier, isColumn, bound.inSchema a isMem, bound.names ▸ List.mem_map_of_mem isMem, isNew⟩

/-- Only rows that are there are written to. -/
theorem row_of_mem_writes (isView : db.view s.table none = .ok view) {writes : List Write}
    (h : s.writes db = .ok writes) {w : Write} (mem : w ∈ writes) :
    w.id ∈ (view.rows db.stores).ids := by
  obtain ⟨view', filter, assignments, rows, isView', _, _, rfl⟩ := writes_eq_ok h
  cases isView.symm.trans isView'
  obtain ⟨row, inRows, _⟩ := TableView.mem_rowWrites mem
  exact (TableView.mem_matching.1 (List.of_mem_zip inRows).1).1

/-- A planned write gives an assigned field a value that was checked for it. -/
theorem mem_writes (isView : db.view s.table none = .ok view) {writes : List Write}
    (h : s.writes db = .ok writes) :
    ∀ w ∈ writes, w.column ∈ view.schema.columns ∧ w.column.name ∈ s.assignments.map (·.1) ∧
      db.Permits s.table w.id w.column.name w.value := by
  intro w mem
  obtain ⟨a, earlier, same, inSchema, isAssigned, isNew⟩ := assignment_of_mem_writes isView h mem
  rw [← same]
  exact ⟨inSchema, isAssigned, Assignment.permits isView isNew⟩

/-- Of two values that are planned for a unique column in different rows, the later one was compared with
the earlier one. -/
theorem writes_apart {writes : List Write} (h : s.writes db = .ok writes) {w w' : Write}
    (mem : w ∈ writes) (mem' : w' ∈ writes) (sameColumn : w.column.name = w'.column.name)
    (unique : w.column.unique = true) (differ : w.id ≠ w'.id) : ¬ Value.Equals w.value w'.value := by
  obtain ⟨view, filter, assignments, rows, _, bound, isRows, rfl⟩ := writes_eq_ok h
  obtain ⟨row, i, a, inRows, isAssignment, isColumn, isValue⟩ := TableView.mem_assignedWrites mem
  obtain ⟨row', j, a', inRows', isAssignment', isColumn', isValue'⟩ := TableView.mem_assignedWrites mem'
  have samePlace : i = j := by
    have nodup := bound.distinct
    rw [← bound.names] at nodup
    have inside := (List.getElem?_eq_some_iff.1 isAssignment).1
    apply (List.getElem?_inj (by rwa [List.length_map]) nodup).1
    rw [List.getElem?_map, List.getElem?_map, isAssignment, isAssignment', Option.map_some,
      Option.map_some, isColumn, isColumn', sameColumn]
  subst samePlace
  have differ' : (w.id, row) ≠ (w'.id, row') := fun same => differ (congrArg Prod.fst same)
  have symm : Std.Symm fun e e' : RowId × List Value => Assignment.Apart assignments e.2 e'.2 :=
    ⟨fun _ _ => Assignment.Apart.symm⟩
  have apart := (Database.newRows_apart isRows).forall inRows inRows' differ'
  exact apart i a _ _ isAssignment (isColumn ▸ unique) isValue isValue'

/-- An UPDATE fails before anything is written, or it makes the writes that were planned. -/
theorem runFrom_run (s : Update) (fits : ∀ view, db.view s.table none = .ok view → view.Fits db) :
    (∃ e, s.writes db = .error e ∧ s.run.runFrom db = (.error e, db)) ∨
      ∃ view writes, db.view s.table none = .ok view ∧
        s.writes db = .ok writes ∧ s.run.runFrom db = (view.writeAll writes).runFrom db := by
  let P (result : Checked Unit × Database) : Prop :=
    (∃ e, s.writes db = .error e ∧ result = (.error e, db)) ∨
      ∃ view writes, db.view s.table none = .ok view ∧ s.writes db = .ok writes ∧
        result = (view.writeAll writes).runFrom db
  change P (s.run.runFrom db)
  have failed : ∀ e, s.writes db = .error e → P (.error e, db) := fun e refused => .inl ⟨e, refused, rfl⟩
  refine Move.bind_result (Move.runFrom_get db) nofun fun _ eq => ?_
  cases eq
  refine Move.bind_result (Move.runFrom_lift _ _) (fun e bad => failed e ?_) fun schema isSchema => ?_
  · simp only [writes, bad, Checked.error_bind]
  refine Move.bind_result (Move.runFrom_lift _ _) (fun e bad => failed e ?_) fun columns isColumns => ?_
  · simp only [writes, isSchema, bad, Checked.ok_bind, Checked.error_bind]
  refine Move.bind_result (Move.runFrom_lift _ _) (fun e bad => failed e ?_) fun view isView => ?_
  · simp only [writes, isSchema, isColumns, bad, Checked.ok_bind, Checked.error_bind]
  refine Move.bind_result (Move.runFrom_optionMapM_lift _ _ _) (fun e bad => failed e ?_)
    fun filter isFilter => ?_
  · simp only [writes, isSchema, isColumns, isView, bad, Checked.ok_bind, Checked.error_bind]
  refine Move.bind_result
    (Move.runFrom_mapM_lift (fun a : String × Tree => a.2.bind view.fieldCheck) _ _)
    (fun e bad => failed e ?_) fun values isValues => ?_
  · simp only [writes, isSchema, isColumns, isView, isFilter, bad, Checked.ok_bind, Checked.error_bind]
  have planned : s.writes db = (do
      let rows ← db.newRows view s.table filter
        ((columns.zip values).map fun (column, value) => Assignment.mk column value)
      return TableView.rowWrites columns (view.matching db filter (view.rows db.stores).ids) rows) := by
    simp only [writes, isSchema, isColumns, isView, isFilter, isValues, Checked.ok_bind]
  refine Move.bind_result (Move.runFrom_lift _ _) (fun e bad => failed e ?_) fun rows isRows => ?_
  · rw [planned, bad, Checked.error_bind]
  have inSchema := (Schema.targets_go_eq_ok isColumns).2
  rw [← Database.schema_of_view isSchema isView] at inSchema
  refine .inr ⟨view, _, isView, ?_, TableView.writeRows_eq (fits view isView) inSchema isFilter
    (SortedMap.keys_nodup _) (Database.newRows_eq_ok isRows).answers .refl⟩
  rw [planned, isRows, Checked.ok_bind]
  rfl

/-- Whether an UPDATE succeeds or stops midway, it has only written values that were planned. -/
theorem rewrites_planned (wf : db.WellFormed) (s : Update) :
    (s.run.runFrom db).2 = db ∨ ∃ view writes, db.view s.table none = .ok view ∧
      s.writes db = .ok writes ∧ Rewrites view (Write.Among writes) db (s.run.runFrom db).2 := by
  rcases s.runFrom_run fun _ => wf.fits with ⟨e, -, failed⟩ | ⟨view, writes, isView, planned, same⟩
  · left
    rw [failed]
  · right
    refine ⟨view, writes, isView, planned, ?_⟩
    rw [same]
    apply Rewrites.writeAll (wf.fits isView)
    · intro w mem
      exact (mem_writes isView planned w mem).1
    · intro w mem
      exact ⟨w, mem, rfl, rfl, rfl⟩

/-- What was written was checked on the database before the statement, for the field and the row that it
was written to. -/
theorem rewrites (wf : db.WellFormed) (s : Update) :
    (s.run.runFrom db).2 = db ∨ ∃ view, db.view s.table none = .ok view ∧
      Rewrites view (fun id field v => db.Permits s.table id field v) db (s.run.runFrom db).2 := by
  rcases s.rewrites_planned wf with same | ⟨view, writes, isView, planned, h⟩
  · exact .inl same
  · refine .inr ⟨view, isView, h.weaken ?_⟩
    rintro _ _ _ ⟨w, mem, rfl, rfl, rfl⟩
    exact (mem_writes isView planned w mem).2.2

/-- An UPDATE keeps references satisfied, except those of its table to itself. -/
theorem keeps (wf : db.WellFormed) (s : Update) :
    db.Keeps (fun r => r.onUpdate = .noAction ∧ ¬ (r.childTable = s.table ∧ r.parentTable = s.table))
      (s.run.runFrom db).2 := by
  rcases s.rewrites wf with same | ⟨view, isView, h⟩
  · rw [same]
    exact .refl wf
  · refine ⟨wf.rewrites h, h.tables, h.references, fun r mem kind before => ?_⟩
    exact h.satisfied wf isView mem kind.1 before fun child parent => absurd ⟨child, parent⟩ kind.2

/-! ## What is read afterwards -/

section

variable {writes : List Write} {field : String} {v : Value}

/-- After an UPDATE that succeeds each row of its table reads the values that were planned. -/
theorem reads_after (wf : db.WellFormed) (h : s.run.runFrom db = (.ok (), db'))
    (planned : s.writes db = .ok writes) (bare : FieldName.Bare field) :
    db'.Reads s.table id field v ↔
      ∃ old, db.Reads s.table id field old ∧ v = Write.valueAfter writes id field old := by
  rcases s.runFrom_run fun _ => wf.fits with ⟨e, -, failed⟩ | ⟨view, writes', isView, planned', same⟩
  · cases h.symm.trans failed
  · cases planned.symm.trans planned'
    exact Rewrites.reads_writeAll wf isView (fun w mem => (mem_writes isView planned w mem).1)
      (same.symm.trans h) bare

theorem writes_of_run (wf : db.WellFormed) (h : s.run.runFrom db = (.ok (), db')) :
    ∃ view writes, db.view s.table none = .ok view ∧ s.writes db = .ok writes := by
  rcases s.runFrom_run fun _ => wf.fits with ⟨e, -, failed⟩ | ⟨view, writes, isView, planned, _⟩
  · cases h.symm.trans failed
  · exact ⟨view, writes, isView, planned⟩

/-- A field that is not assigned keeps its value. -/
theorem valueAfter_of_notMem (isView : db.view s.table none = .ok view)
    (planned : s.writes db = .ok writes) (unassigned : field ∉ s.assignments.map (·.1)) :
    Write.valueAfter writes id field v = v := by
  rcases Write.valueAfter_mem writes id field v with
    ⟨_, same⟩ | ⟨w, mem, _, isField, _⟩
  · exact same
  · exact absurd (isField ▸ (mem_writes isView planned w mem).2.1) unassigned

end

end Update

end RelEngine
