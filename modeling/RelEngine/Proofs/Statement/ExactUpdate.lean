import RelEngine.Proofs.Statement.Passes
import RelEngine.Proofs.Statement.SoundRows

/-!
An UPDATE fails as a whole, or it changes the rows on which its condition is true and no others. The new
values come from the rows as they were, also where the row they are for has new values already.
-/
namespace RelEngine

variable {db db' : Database} {view : TableView} {filter : Option Expr} {assignments : List Assignment}
  {rows : List (List Value)} {s : Update} {id : RowId}

/-- The condition of the UPDATE is true on the row. -/
def Update.Picks (s : Update) (row : String → Checked Value) : Prop :=
  Tree.verdict? s.filter row = some true

/-- What an UPDATE that succeeds leaves. Each assigned field of a row that is picked has the value that the
expression has on the old row, brought to the kind of its column. -/
structure Update.Exact (s : Update) (view : TableView) (db db' : Database) : Prop where
  tables : db'.tables = db.tables
  references : db'.references = db.references
  others : ∀ other, other ≠ s.table → db'.rows other = db.rows other
  ids : (view.rows db'.stores).ids = (view.rows db.stores).ids
  nextId : (view.rows db'.stores).nextId = (view.rows db.stores).nextId
  unpicked : ∀ id, ¬ s.Picks (view.read db.stores (some id)) →
    (view.rows db'.stores).find? id = (view.rows db.stores).find? id
  assigned : ∀ id ∈ (view.rows db.stores).ids, s.Picks (view.read db.stores (some id)) →
    ∀ e ∈ s.assignments, ∃ c ∈ view.schema.columns, c.name = e.1 ∧
      ∃ raw v, e.2.value (view.read db.stores (some id)) = .ok raw ∧ c.normalize raw = .ok v ∧
        view.read db'.stores (some id) e.1 = .ok v
  unassigned : ∀ id ∈ (view.rows db.stores).ids, ∀ c ∈ view.schema.columns,
    c.name ∉ s.assignments.map (·.1) →
      view.read db'.stores (some id) c.name = view.read db.stores (some id) c.name

/-- The pass that writes ends well. On each row that it comes to, the condition gives the answer that it gave
before anything was written. -/
structure TableView.Repeats (view : TableView) (filter : Option Expr) (columns : List Column)
    (rows : List (List Value)) (db db' : Database) : Prop where
  done : (view.writeRows filter columns (view.rows db.stores).ids rows).runFrom db = (.ok (), db')
  again : ∀ before id after, (view.rows db.stores).ids = before ++ id :: after →
    view.accepts ((view.writeRows filter columns before rows).runFrom db).2.stores filter id =
      view.accepts db.stores filter id

/-! ## The pass that writes -/

namespace TableView

variable {columns : List Column} {check : FieldCheck} {tree? : Option Tree}

theorem repeats_of_writeAll (fits : view.Fits db) (inSchema : ∀ c ∈ columns, c ∈ view.schema.columns)
    (bound : tree?.mapM (·.bind check) = .ok filter)
    (answers : ∀ id ∈ (view.rows db.stores).ids, ∃ b, view.accepts db.stores filter id = .ok b)
    (done : (view.writeAll (rowWrites columns (view.matching db filter (view.rows db.stores).ids)
      rows)).runFrom db = (.ok (), db')) : view.Repeats filter columns rows db db' where
  done := (writeRows_eq fits inSchema bound (SortedMap.keys_nodup _) answers .refl).trans done
  again before id after split := by
    have nodup : (before ++ id :: after).Nodup := split ▸ SortedMap.keys_nodup _
    obtain ⟨nodupBefore, -, apart⟩ := List.nodup_append.1 nodup
    have fresh : id ∉ before := fun mem => apart id mem id List.mem_cons_self rfl
    rw [split] at answers
    have passed : ∀ other ∈ before, ∃ b, view.accepts db.stores filter other = .ok b :=
      fun other mem => answers other (List.mem_append_left _ mem)
    -- What is written on the way to a row goes to the rows before it.
    have written : Rewrites view (fun other _ _ => other ∈ before) db
        ((view.writeRows filter columns before rows).runFrom db).2 := by
      rw [writeRows_eq fits inSchema bound nodupBefore passed .refl]
      refine .writeAll fits (fun w mem => ?_) fun w mem => ?_
      · obtain ⟨row, _, inRow⟩ := mem_rowWrites mem
        exact inSchema _ (List.of_mem_zip inRow).1
      · obtain ⟨row, inRows, _⟩ := mem_rowWrites mem
        exact (mem_matching.1 (List.of_mem_zip inRows).1).1
    have same := written.read_eq fun _ _ here => fresh here
    exact accepts_eq bound same

/-- After writes that succeed a column of a row has the value that was written to it last. -/
theorem read_writeAll {writes : List Write} (fits : view.Fits db)
    (inSchema : ∀ w ∈ writes, w.column ∈ view.schema.columns)
    (done : (view.writeAll writes).runFrom db = (.ok (), db'))
    (isRow : id ∈ (view.rows db.stores).ids) {c : Column} (isColumn : c ∈ view.schema.columns) :
    ∃ old, view.read db.stores (some id) c.name = .ok old ∧
      view.read db'.stores (some id) c.name = .ok (Write.valueAfter writes id c.name old) := by
  obtain ⟨row, found⟩ := RowStore.mem_ids_iff.1 isRow
  obtain ⟨row', found', fields⟩ := writeAll_eq_ok fits inSchema done found
  obtain ⟨slot, isSlot, _⟩ := Schema.slot?_of_mem isColumn
  have bare := (fits.regular c isColumn).bare
  have isOld : Row.get view.schema row c.name = _ := Row.read_eq isSlot
  refine ⟨_, (read_eq_get bare found).trans isOld, ?_⟩
  exact (read_eq_get bare found').trans (fields c.name _ isOld)

end TableView

theorem Rewrites.rows_other {allowed : RowId → String → Value → Prop} {table other : String}
    (h : Rewrites view allowed db db') (placed : db.Placed) (isView : db.view table none = .ok view)
    (differ : other ≠ table) : db'.rows other = db.rows other := by
  obtain ⟨t, isOwn, rfl⟩ := Database.view_eq_ok.1 isView
  rw [Database.rows, Database.rows, Database.table, Database.table, h.tables]
  cases isTable : db.tables.find? other with
  | none => rfl
  | some u =>
    have elsewhere : u.store ≠ t.store := fun same => differ (placed.apart isTable isOwn same)
    exact congrArg Except.ok (h.others _ elsewhere)

/-! ## What is written -/

namespace Update

/-- The rows that match the bound condition are those that the UPDATE picks. -/
theorem Bound.picks_iff (bound : s.Bound view filter assignments) :
    view.accepts db.stores filter id = .ok true ↔ s.Picks (view.read db.stores (some id)) :=
  TableView.accepts_eq_ok bound.condition

/-- Each planned write to an assigned field of a row gives it the one value that the assignment has on the
row as it was. -/
theorem Bound.value_of_mem (bound : s.Bound view filter assignments)
    (isRows : db.newRows view s.table filter assignments = .ok rows) {a : Assignment} {e : String × Tree}
    (isAssignment : a ∈ assignments) (isTree : e.2.bind view.fieldCheck = .ok a.value) {w : Write}
    (mem : w ∈ TableView.rowWrites (assignments.map (·.column))
      (view.matching db filter (view.rows db.stores).ids) rows)
    (isField : w.column.name = a.column.name) :
    ∃ raw, e.2.value (view.read db.stores (some w.id)) = .ok raw ∧
      a.column.normalize raw = .ok w.value := by
  obtain ⟨a', isAssignment', earlier, isColumn, isNew⟩ := Database.newValue_of_mem_rowWrites isRows mem
  have nodup : (assignments.map (·.column.name)).Nodup := bound.names ▸ bound.distinct
  have sameName : a'.column.name = a.column.name := (congrArg Column.name isColumn).trans isField
  cases List.inj_on_of_nodup_map nodup isAssignment' isAssignment sameName
  obtain ⟨raw, _, isRaw, isNormal, _⟩ := Assignment.newValue_eq_ok isNew
  refine ⟨raw, ?_, isNormal⟩
  rw [← Checked.toOption_eq_some, ← Tree.toOption_eval_bind e.2 isTree fun _ _ => rfl,
    Checked.toOption_eq_some]
  exact isRaw

theorem Bound.exact (bound : s.Bound view filter assignments) (placed : db.Placed)
    (isView : db.view s.table none = .ok view) (fits : view.Fits db)
    (isRows : db.newRows view s.table filter assignments = .ok rows)
    (done : (view.writeAll (TableView.rowWrites (assignments.map (·.column))
      (view.matching db filter (view.rows db.stores).ids) rows)).runFrom db = (.ok (), db')) :
    s.Exact view db db' := by
  have isWrite : ∀ w ∈ TableView.rowWrites (assignments.map (·.column))
      (view.matching db filter (view.rows db.stores).ids) rows,
      (w.column ∈ view.schema.columns ∧ w.column.name ∈ s.assignments.map (·.1)) ∧
        s.Picks (view.read db.stores (some w.id)) := by
    intro w mem
    obtain ⟨a, isAssignment, _, isColumn, _⟩ := Database.newValue_of_mem_rowWrites isRows mem
    obtain ⟨row, inRows, _⟩ := TableView.mem_rowWrites mem
    have isMatch := (TableView.mem_matching.1 (List.of_mem_zip inRows).1).2
    rw [← isColumn]
    refine ⟨⟨bound.inSchema a isAssignment, bound.names ▸ List.mem_map_of_mem isAssignment⟩, ?_⟩
    exact bound.picks_iff.1 isMatch
  have inSchema := fun w mem => (isWrite w mem).1.1
  have written : Rewrites view (fun _ _ _ => True) db _ := .writeAll fits inSchema fun _ _ => trivial
  rw [done] at written
  obtain ⟨nextId, others⟩ := TableView.writeAll_others fits.inside done
  refine ⟨written.tables, written.references, fun other differ => ?_, written.ids, nextId,
    fun id unpicked => ?_, fun id isRow picked e isAssigned => ?_, fun id isRow c isColumn notAssigned => ?_⟩
  · exact written.rows_other placed isView differ
  · exact others id fun w mem isHere => unpicked (isHere ▸ (isWrite w mem).2)
  · obtain ⟨a, isAssignment, sameName, isTree⟩ := exists_of_mem_left bound.assigned.flip isAssigned
    have isColumn := bound.inSchema a isAssignment
    obtain ⟨old, _, isNew⟩ := TableView.read_writeAll fits inSchema done isRow isColumn
    have isMatch := TableView.mem_matching.2 ⟨isRow, bound.picks_iff.2 picked⟩
    obtain ⟨first, isFirst, here⟩ := Database.exists_rowWrite isRows isMatch isAssignment
    rcases Write.valueAfter_mem _ id a.column.name old with ⟨none, _⟩ | ⟨w, mem, rfl, isField, same⟩
    · exact absurd ⟨here.1, congrArg Column.name here.2⟩ (none first isFirst)
    · obtain ⟨raw, isRaw, isNormal⟩ := bound.value_of_mem isRows isAssignment isTree mem isField
      rw [same, sameName] at isNew
      exact ⟨a.column, isColumn, sameName, raw, w.value, isRaw, isNormal, isNew⟩
  · obtain ⟨old, isOld, isNew⟩ := TableView.read_writeAll fits inSchema done isRow isColumn
    rcases Write.valueAfter_mem _ id c.name old with ⟨_, same⟩ | ⟨w, mem, _, isField, _⟩
    · rw [isNew, same, isOld]
    · exact absurd (isField ▸ (isWrite w mem).1.2) notAssigned

end Update

/-- An UPDATE that fails leaves the database as it was, and it fails before its first write. One that succeeds
changes exactly the rows that its condition is true on, and it finds them a second time while it writes. All this
holds as well of a cursor that goes over the table, back to its start, and over the table again while its rows are
being changed: it comes to the same end in the same database. -/
theorem Database.update_exact (placed : db.Placed) (laid : db.Laid Column.Regular) (s : Update) :
    s.sweep.runFrom db = db.execute (.update s) ∧
    ((∃ e, s.writes db = .error e ∧ db.execute (.update s) = (.error e, db)) ∨
      ∃ view filter assignments rows db', db.view s.table none = .ok view ∧
        s.Bound view filter assignments ∧ db.newRows view s.table filter assignments = .ok rows ∧
        db.execute (.update s) = (.ok (), db') ∧ s.Exact view db db' ∧
        view.Repeats filter (assignments.map (·.column)) rows db db') := by
  refine ⟨s.runFrom_sweep db, ?_⟩
  rcases s.runFrom_run fun _ => laid.fits placed with ⟨e, refused, failed⟩ | ⟨view, _, isView, planned, same⟩
  · exact .inl ⟨e, refused, failed⟩
  · have fits := laid.fits placed isView
    obtain ⟨db', done⟩ := Update.writes_done fits isView planned
    obtain ⟨view', filter, assignments, rows, isView', bound, isRows, rfl⟩ := Update.writes_eq_ok planned
    cases isView.symm.trans isView'
    have inSchema : ∀ c ∈ assignments.map (·.column), c ∈ view.schema.columns :=
      List.forall_mem_map.2 bound.inSchema
    exact .inr ⟨view, filter, assignments, rows, db', isView, bound, isRows, same.trans done,
      bound.exact placed isView fits isRows done,
      TableView.repeats_of_writeAll fits inSchema bound.condition (newRows_eq_ok isRows).answers done⟩

/-- Three rows of two numbers. -/
def countedRows : List Statement :=
  [.createTable ⟨"t", [.plain "n" .int 0, .plain "m" .int 0], []⟩,
    .insert ⟨"t", some ["n"],
      [[.const (some (.int 1))], [.const (some (.int 2))], [.const (some (.int 3))]]⟩]

/-- Counts down the numbers above one. The number is assigned before the field that takes its old value, and it
is what the condition asks about. -/
def Update.countDown : Update where
  table := "t"
  assignments := [("n", .apply .minus [.field "n", .const (some (.int 1))]), ("m", .field "t.n")]
  filter := some (.apply .gt [.field "n", .const (some (.int 1))])

theorem Database.update_exact_countDown :
    ∃ view db', (afterAll countedRows).view "t" none = .ok view ∧
      (afterAll countedRows).execute (.update .countDown) = (.ok (), db') ∧
      Update.countDown.sweep.runFrom (afterAll countedRows) = (.ok (), db') ∧
      Update.countDown.Exact view (afterAll countedRows) db' ∧
      db'.listRows "t" = .ok [[.ok (some (.int 1)), .ok none],
        [.ok (some (.int 1)), .ok (some (.int 2))], [.ok (some (.int 2)), .ok (some (.int 3))]] := by
  have regular : ∀ s ∈ countedRows, s.Declares Column.Regular := by decide +kernel
  have reached : (afterAll countedRows).Reached fun _ s => s.Declares Column.Regular :=
    reached_afterAll fun s mem _ => regular s mem
  have succeeds : ((afterAll countedRows).execute (.update .countDown)).1 = .ok () := by decide +kernel
  have after : ((afterAll countedRows).execute (.update .countDown)).2.listRows "t" =
      .ok [[.ok (some (.int 1)), .ok none], [.ok (some (.int 1)), .ok (some (.int 2))],
        [.ok (some (.int 2)), .ok (some (.int 3))]] := by decide +kernel
  obtain ⟨swept, ⟨e, -, failed⟩ | ⟨view, _, _, _, db', isView, -, -, done, exact, -⟩⟩ :=
    update_exact reached.placed (reached.laid fun _ regular => regular.sized) .countDown
  · rw [failed] at succeeds
    cases succeeds
  · rw [done] at after
    exact ⟨view, db', isView, done, swept.trans done, exact, after⟩

end RelEngine
