import RelEngine.Proofs.Row.Stored
import RelEngine.Proofs.Statement.ChildValues
import RelEngine.Proofs.Statement.ExactDelete
import RelEngine.Proofs.Statement.ExactInsert
import RelEngine.Proofs.Statement.ExactUpdate
import RelEngine.Proofs.Statement.UniqueColumns

/-!
An UPDATE that assigns fields to themselves is accepted and changes nothing.

A value that is stored is taken again as it is. If it is identical to itself, it is not checked; it was written
in another row before only if it stands there as well, which a unique column rules out. A NaN is identical to
nothing, so it is checked, and there is nothing that it could collide with. That it has no parent does not
matter, as no field that refers to another one holds a NaN.
-/
namespace RelEngine

/-- The UPDATE that gives each of some columns its own value. -/
def Update.identity (table : String) (columns : List Column) (filter : Option Tree) : Update where
  table := table
  assignments := columns.map fun c => (c.name, .field c.name)
  filter := filter

def Assignment.identity (c : Column) : Assignment := ⟨c, .field c.name⟩

/-- The condition is about fields of the table and has a value on each of its rows. -/
structure TableView.Evaluates (view : TableView) (stores : Stores) (tree : Tree) : Prop where
  bound : ∃ e, tree.bind view.fieldCheck = .ok e
  value : ∀ id ∈ (view.rows stores).ids, ∃ v, tree.value (view.read stores (some id)) = .ok v

/-- The databases have the same tables with the same rows, and the same values in them up to NaNs. -/
structure Database.SameValues (db db' : Database) : Prop where
  tables : db'.tables = db.tables
  references : db'.references = db.references
  ids : ∀ {table view}, db.view table none = .ok view → (view.rows db'.stores).ids = (view.rows db.stores).ids
  values : ∀ {table view}, db.view table none = .ok view → ∀ id ∈ (view.rows db.stores).ids,
    ∀ c ∈ view.schema.columns, ∃ v w, view.read db.stores (some id) c.name = .ok v ∧
      view.read db'.stores (some id) c.name = .ok w ∧ v.SameUpToNaN w

variable {db : Database} {view : TableView} {table : String} {c : Column} {id : RowId} {v w : Value}
  {columns : List Column}

/-- Then whether a row matches has an answer. -/
theorem TableView.answers_of_evaluates {filter : Option Tree}
    (evaluates : ∀ tree ∈ filter, view.Evaluates db.stores tree) :
    ∃ bound, filter.mapM (·.bind view.fieldCheck) = .ok bound ∧
      ∀ id ∈ (view.rows db.stores).ids, ∃ b, view.accepts db.stores bound id = .ok b := by
  cases filter with
  | none => exact ⟨none, rfl, fun _ _ => ⟨true, rfl⟩⟩
  | some tree =>
    obtain ⟨⟨e, isBound⟩, value⟩ := evaluates tree rfl
    have bound : (some tree).mapM (·.bind view.fieldCheck) = .ok (some e) := by
      rw [Option.mapM_some, isBound]
      rfl
    refine ⟨some e, bound, fun id mem => ?_⟩
    obtain ⟨v, isValue⟩ := value id mem
    refine ⟨v.isTrue, (accepts_eq_ok bound).2 ?_⟩
    rw [Tree.verdict?, isValue]
    rfl

/-! ## New values -/

/-- A new value is accepted if it is identical to the old one or passes the checks, and if no other row got it. -/
theorem Assignment.newValue_of_checks {a : Assignment} {earlier : List Value} {raw current : Value}
    (isRaw : a.value.eval db.stores (view.read db.stores (some id)) = .ok raw)
    (isNormal : a.column.normalize raw = .ok v)
    (isCurrent : view.read db.stores (some id) a.column.name = .ok current)
    (checked : Value.identical v current = true ∨ db.checkUnique table a.column v = .ok () ∧
      db.checkParents table a.column.name v = .ok () ∧
      (db.references.filter (·.hasParent table a.column.name)).forM
        (fun r => db.checkChildren r current .update) = .ok ())
    (unused : (a.column.unique && !v.isNull && earlier.any (Value.identical · v)) = false) :
    a.newValue db view table id earlier = .ok v := by
  simp only [newValue, newValueOn, isRaw, isNormal, isCurrent, unused, Checked.ok_bind]
  rcases checked with identical | ⟨unique, parents, children⟩
  · rw [identical]
    rfl
  · split
    · rw [unique, parents, children]
      rfl
    · rfl

theorem TableView.bind_field (isColumn : c ∈ view.schema.columns) (bare : FieldName.Bare c.name) :
    (Tree.field c.name).bind view.fieldCheck = .ok (.field c.name) := by
  have isField : view.schema.has c.name = true := Schema.has_iff.2 (List.mem_map_of_mem isColumn)
  rw [Tree.bind, fieldCheck, FieldCheck.among, has, local?_of_bare bare, if_pos isField]
  rfl

/-- An UPDATE whose writes could be planned succeeds. -/
theorem Update.exact_of_writes {s : Update} (wf : db.WellFormed) (isView : db.view s.table none = .ok view)
    {writes : List Write} (planned : s.writes db = .ok writes) :
    ∃ db', db.execute (.update s) = (.ok (), db') ∧ s.Exact view db db' := by
  rcases s.runFrom_run fun _ => wf.fits with ⟨e, refused, _⟩ | ⟨_, _, isView', planned', run⟩
  · cases planned.symm.trans refused
  · cases isView.symm.trans isView'
    cases planned.symm.trans planned'
    obtain ⟨db', done⟩ := writes_done (wf.fits isView) isView planned
    obtain ⟨_, _, _, _, isView', bound, areRows, rfl⟩ := writes_eq_ok planned
    cases isView.symm.trans isView'
    exact ⟨db', run.trans done, bound.exact ⟨wf.inside, wf.apart⟩ isView (wf.fits isView) areRows done⟩

namespace Database

theorem storable_of_reads (sound : db.Sound) (wf : db.WellFormed) (isView : db.view table none = .ok view)
    (isColumn : c ∈ view.schema.columns) (reads : db.Reads table id c.name v) : c.Storable v := by
  have fits := wf.fits isView
  obtain ⟨row, found, isRead⟩ := (reads_view isView (fits.regular c isColumn).bare).1 reads
  obtain ⟨slot, isSlot, rfl⟩ := Schema.slot?_of_mem isColumn
  cases isRead.symm.trans (Row.read_eq isSlot)
  exact (sound table view isView id row found).storable (fun d mem => (fits.regular d mem).sized) isSlot

section

variable (reached : db.Reached fun _ s => s.Regular) (isView : db.view table none = .ok view)
  (isColumn : c ∈ view.schema.columns)

include reached

theorem Reached.closed_regular : db.Closed :=
  (reached.weaken fun _ _ regular => regular.declares).closed_of_regular

include isView isColumn

/-- A NaN collides with nothing, and nothing refers to it. -/
theorem Reached.checks_of_isNaN (reads : db.Reads table id c.name v) (isHeld : c.Holds w) (nan : v.isNaN = true)
    (nan' : w.isNaN = true) : db.checkUnique table c w = .ok () ∧ db.checkParents table c.name w = .ok () ∧
      (db.references.filter (·.hasParent table c.name)).forM (fun r => db.checkChildren r v .update) =
        .ok () := by
  have closed := reached.closed_regular
  refine ⟨closed.checkUnique isView isColumn isHeld fun _ _ _ _ equals => ?_,
    closed.checkParents isView isColumn isHeld fun r mem isChild => ?_,
    Checked.forM_of_forall fun r mem => ?_⟩
  · cases nan'.symm.trans equals.isNaN_left
  · obtain ⟨rfl, isField⟩ := Reference.hasChild_iff.1 isChild
    cases nan.symm.trans (reached.noNaNRefers r mem id v (isField ▸ reads))
  · obtain ⟨mem, isParent⟩ := List.mem_filter.1 mem
    obtain ⟨_, isView', _, isRead⟩ := reads
    cases isView.symm.trans isView'
    have isHeld' := closed.holds_of_read isView isColumn isRead
    cases checked : db.checkChildren r v .update with
    | ok => rfl
    | error e =>
      obtain ⟨_, _, _, _, _, _, equals⟩ :=
        closed.checkChildren_eq_error isView isColumn isHeld' mem isParent checked
      cases nan.symm.trans equals.isNaN_left

/-- The own value of a field is accepted. Other rows got their own values, which are no longer in the way. -/
theorem Reached.newValue_identity (isRow : id ∈ (view.rows db.stores).ids) {earlier : List Value}
    (others : ∀ u ∈ earlier, u = none ∨
      ∃ other ≠ id, ∃ v, db.Reads table other c.name v ∧ v.SameUpToNaN u) :
    ∃ v w, (Assignment.identity c).newValue db view table id earlier = .ok w ∧
      db.Reads table id c.name v ∧ v.SameUpToNaN w := by
  have wf := reached.wellFormed
  have bare := ((wf.fits isView).regular c isColumn).bare
  obtain ⟨v, isRead, -⟩ := TableView.read_of_column isColumn bare db.stores (some id)
  have reads : db.Reads table id c.name v := ⟨view, isView, isRow, isRead⟩
  have storable := storable_of_reads reached.sound wf isView isColumn reads
  obtain ⟨w, isNormal, same⟩ := Column.normalize_stored storable
  refine ⟨v, w, Assignment.newValue_of_checks isRead isNormal isRead ?_ ?_, reads, same⟩
  · rcases same with rfl | ⟨nan, nan', _⟩
    · cases nan : v.isNaN with
      | false => exact .inl (Value.identical_self_iff.2 nan)
      | true =>
        have isHeld := Column.holds_of_normalize isNormal
        exact .inr (reached.checks_of_isNaN isView isColumn reads isHeld nan nan)
    · exact .inr (reached.checks_of_isNaN isView isColumn reads (Column.holds_of_normalize isNormal) nan nan')
  · by_contra used
    rw [Bool.not_eq_false, Bool.and_eq_true, Bool.and_eq_true, List.any_eq_true] at used
    obtain ⟨⟨unique, notNull⟩, u, mem, identical⟩ := used
    have nonNull : u ≠ none := by
      rintro rfl
      rw [Value.identical_none identical] at notNull
      cases notNull
    have equals := Value.equals_of_identical identical nonNull
    rcases others u mem with isNull | ⟨other, differ, v', reads', same'⟩
    · exact nonNull isNull
    · rw [← same'.eq_of_not_nan equals.isNaN_left, ← same.eq_of_not_nan equals.symm.isNaN_left] at equals
      obtain ⟨t, isTable, rfl⟩ := view_eq_ok.1 isView
      exact differ (reached.distinct table t isTable c isColumn unique other id v' v reads' reads equals)

end

/-! ## New rows -/

/-- The values are those that the row has in the columns. -/
def Copies (db : Database) (table : String) (columns : List Column) (id : RowId) (row : List Value) : Prop :=
  ∀ (i : Nat) (c : Column) (u : Value), columns[i]? = some c → row[i]? = some u →
    ∃ v, db.Reads table id c.name v ∧ v.SameUpToNaN u

section

variable (reached : db.Reached fun _ s => s.Regular) (isView : db.view table none = .ok view)
  (inSchema : ∀ c ∈ columns, c ∈ view.schema.columns)

include reached isView inSchema

theorem Reached.newRow_identity (isRow : id ∈ (view.rows db.stores).ids) {earlier : List (List Value)}
    (others : ∀ row ∈ earlier, ∃ other ≠ id, db.Copies table columns other row) :
    ∃ row, db.newRow view table (columns.map .identity) earlier id = .ok row ∧
      db.Copies table columns id row := by
  have each : ∀ (i : Nat) (c : Column), columns[i]? = some c →
      ∃ v w, (Assignment.identity c).newValue db view table id (earlier.map (·.getD i none)) = .ok w ∧
        db.Reads table id c.name v ∧ v.SameUpToNaN w := by
    intro i c isColumn
    refine reached.newValue_identity isView (inSchema c (List.mem_of_getElem? isColumn)) isRow fun u mem => ?_
    obtain ⟨row, isEarlier, rfl⟩ := List.mem_map.1 mem
    rw [List.getD_eq_getElem?_getD]
    cases isValue : row[i]? with
    | none => exact .inl rfl
    | some u =>
      obtain ⟨other, differ, copies⟩ := others row isEarlier
      exact .inr ⟨other, differ, copies i c u isColumn isValue⟩
  obtain ⟨row, isNew⟩ : ∃ row, db.newRow view table (columns.map .identity) earlier id = .ok row := by
    apply Checked.mapM_of_forall
    rintro ⟨a, i⟩ mem
    have isAssignment := List.mem_zipIdx_iff_getElem?.1 mem
    rw [List.getElem?_map, Option.map_eq_some_iff] at isAssignment
    obtain ⟨c, isColumn, rfl⟩ := isAssignment
    obtain ⟨_, w, isValue, _⟩ := each i c isColumn
    exact ⟨w, isValue⟩
  refine ⟨row, isNew, fun i c u isColumn isValue => ?_⟩
  obtain ⟨a, isAssignment, isNewValue⟩ := newRow_eq_ok isNew isValue
  rw [List.getElem?_map, isColumn] at isAssignment
  cases isAssignment
  obtain ⟨v, w, isOwn, reads, same⟩ := each i c isColumn
  cases isOwn.symm.trans isNewValue
  exact ⟨v, reads, same⟩

/-- One row after the other gets its own values. So far each of the new rows copies a row that was passed. -/
theorem Reached.newRows_identity {filter : Option Expr} {ids : List RowId} (nodup : ids.Nodup)
    (areRows : ∀ id ∈ ids, id ∈ (view.rows db.stores).ids)
    (answers : ∀ id ∈ ids, ∃ b, view.accepts db.stores filter id = .ok b) (earlier : List (List Value))
    (passed : ∀ row ∈ earlier, ∃ other ∉ ids, db.Copies table columns other row) :
    ∃ rows, ids.foldlM (fun earlier id => do
      if ← view.accepts db.stores filter id then
        return earlier ++ [← db.newRow view table (columns.map .identity) earlier id]
      else return earlier) earlier = .ok rows := by
  induction ids generalizing earlier with
  | nil => exact ⟨earlier, rfl⟩
  | cons id ids ih =>
    obtain ⟨fresh, nodup⟩ := List.nodup_cons.1 nodup
    have rest := ih nodup (fun id mem => areRows id (List.mem_cons_of_mem _ mem))
      fun id mem => answers id (List.mem_cons_of_mem _ mem)
    have before : ∀ row ∈ earlier, ∃ other ∉ ids, db.Copies table columns other row := by
      intro row mem
      obtain ⟨other, notHere, copies⟩ := passed row mem
      exact ⟨other, fun mem => notHere (List.mem_cons_of_mem _ mem), copies⟩
    obtain ⟨b, answer⟩ := answers id List.mem_cons_self
    rw [List.foldlM_cons, answer]
    cases b with
    | false => exact rest earlier before
    | true =>
      have others : ∀ row ∈ earlier, ∃ other ≠ id, db.Copies table columns other row := by
        intro row mem
        obtain ⟨other, notHere, copies⟩ := passed row mem
        exact ⟨other, fun same => notHere (same ▸ List.mem_cons_self), copies⟩
      obtain ⟨row, isNew, copies⟩ :=
        reached.newRow_identity isView inSchema (areRows id List.mem_cons_self) others
      simp only [Checked.ok_bind, isNew, if_true]
      refine rest (earlier ++ [row]) fun row' mem => ?_
      rcases List.mem_append.1 mem with mem | mem
      · exact before row' mem
      · rw [List.mem_singleton.1 mem]
        exact ⟨id, fresh, copies⟩

end

end Database

/-! ## The statement -/

section

variable {db' : Database} {filter : Option Tree}

/-- A column of a row that is picked has its own value, as the column takes it, or it was not assigned. -/
theorem Update.Exact.read_identity (exact : (identity table columns filter).Exact view db db')
    (inSchema : ∀ c ∈ columns, c ∈ view.schema.columns) (isColumn : c ∈ view.schema.columns)
    (isRow : id ∈ (view.rows db.stores).ids)
    (picked : (identity table columns filter).Picks (view.read db.stores (some id)))
    (isRead : view.read db.stores (some id) c.name = .ok v) (storable : c.Storable v) :
    ∃ w, view.read db'.stores (some id) c.name = .ok w ∧ v.SameUpToNaN w := by
  by_cases isAssigned : c ∈ columns
  · obtain ⟨d, mem, sameName, raw, w, isRaw, isNormal, isNew⟩ := exact.assigned id isRow picked
      (c.name, .field c.name) (List.mem_map_of_mem isAssigned)
    cases List.inj_on_of_nodup_map view.schema.nodup mem isColumn sameName
    rw [Tree.value, isRead] at isRaw
    cases isRaw
    obtain ⟨w', isNormal', same⟩ := Column.normalize_stored storable
    cases isNormal.symm.trans isNormal'
    exact ⟨w, isNew, same⟩
  · refine ⟨v, (exact.unassigned id isRow c isColumn fun mem => isAssigned ?_).trans isRead, .refl v⟩
    rw [identity, List.map_map] at mem
    obtain ⟨d, isMem, sameName⟩ := List.mem_map.1 mem
    exact List.inj_on_of_nodup_map view.schema.nodup (inSchema d isMem) isColumn sameName ▸ isMem

theorem Update.Exact.sameValues (exact : (identity table columns filter).Exact view db db') (sound : db.Sound)
    (wf : db.WellFormed) (isView : db.view table none = .ok view)
    (inSchema : ∀ c ∈ columns, c ∈ view.schema.columns) : db.SameValues db' := by
  have others : ∀ {other view'}, db.view other none = .ok view' → other ≠ table →
      view'.rows db'.stores = view'.rows db.stores := by
    intro other view' isView' differ
    obtain ⟨t, isTable, rfl⟩ := Database.view_eq_ok.1 isView'
    have same := exact.others other differ
    rw [Database.rows_eq_ok isTable, Database.rows_eq_ok (exact.tables ▸ isTable)] at same
    exact Except.ok.inj same
  refine ⟨exact.tables, exact.references, fun {other view'} isView' => ?_,
    fun {other view'} isView' id isRow c isColumn => ?_⟩
  · by_cases here : other = table
    · subst here
      cases isView.symm.trans isView'
      exact exact.ids
    · rw [others isView' here]
  · obtain ⟨v, isRead, -⟩ := TableView.read_of_column isColumn ((wf.fits isView').regular c isColumn).bare
      db.stores (some id)
    have kept : (view'.rows db'.stores).find? id = (view'.rows db.stores).find? id →
        ∃ v w, view'.read db.stores (some id) c.name = .ok v ∧
          view'.read db'.stores (some id) c.name = .ok w ∧ v.SameUpToNaN w := fun same =>
      ⟨v, v, isRead, (congrFun (TableView.read_congr same) _).trans isRead, .refl v⟩
    by_cases here : other = table
    · subst here
      cases isView.symm.trans isView'
      by_cases picked : (identity other columns filter).Picks (view.read db.stores (some id))
      · have storable := Database.storable_of_reads sound wf isView isColumn ⟨view, isView, isRow, isRead⟩
        obtain ⟨w, isNew, same⟩ := exact.read_identity inSchema isColumn isRow picked isRead storable
        exact ⟨v, w, isRead, isNew, same⟩
      · exact kept (exact.unpicked id picked)
    · exact kept (by rw [others isView' here])

end

namespace Database

section

variable (reached : db.Reached fun _ s => s.Regular) (isView : db.view table none = .ok view)
  (distinct : columns.Nodup) (inSchema : ∀ c ∈ columns, c ∈ view.schema.columns) {filter : Option Tree}

include reached isView distinct inSchema

theorem Reached.writes_identity (evaluates : ∀ tree ∈ filter, view.Evaluates db.stores tree) :
    ∃ writes, (Update.identity table columns filter).writes db = .ok writes := by
  have fits := reached.wellFormed.fits isView
  have isSchema : db.schema table = .ok view.schema := by
    obtain ⟨t, isTable, rfl⟩ := view_eq_ok.1 isView
    exact schema_eq_ok isTable
  have sameName : ∀ a ∈ columns, ∀ b ∈ columns, a.name = b.name → a = b := fun a mem b mem' =>
    List.inj_on_of_nodup_map view.schema.nodup (inSchema a mem) (inSchema b mem')
  have areColumns : view.schema.assigned (columns.map (·.name)) = .ok columns :=
    Schema.targets_go_of_mem inSchema (fun _ _ => List.not_mem_nil) (distinct.map_on sameName)
  have areValues : (columns.map fun c => (c.name, Tree.field c.name)).mapM (fun a => a.2.bind view.fieldCheck) =
      .ok (columns.map fun c => .field c.name) := by
    rw [Checked.mapM_eq_ok, List.map_map, List.map_map]
    apply List.map_congr_left
    intro c mem
    exact TableView.bind_field (inSchema c mem) (fits.regular c (inSchema c mem)).bare
  have zipped : ((columns.zip (columns.map fun c => Expr.field c.name)).map fun x => Assignment.mk x.1 x.2) =
      columns.map .identity := by
    rw [List.map_zip_eq_zipWith, List.zipWith_map_right, List.zipWith_self]
    rfl
  obtain ⟨bound, isBound, answers⟩ := TableView.answers_of_evaluates evaluates
  obtain ⟨rows, areRows⟩ := reached.newRows_identity isView inSchema (SortedMap.keys_nodup _)
    (fun _ mem => mem) answers [] fun _ mem => absurd mem List.not_mem_nil
  refine ⟨TableView.rowWrites columns (view.matching db bound (view.rows db.stores).ids) rows, ?_⟩
  have names : (columns.map fun c => (c.name, Tree.field c.name)).map (·.1) = columns.map (·.name) := by
    rw [List.map_map]
    rfl
  have planned : db.newRows view table bound (columns.map .identity) = .ok rows := areRows
  simp only [Update.writes, Update.identity, isSchema, names, areColumns, isView, isBound, areValues, zipped,
    planned, Checked.ok_bind]
  rfl

/-- An UPDATE that assigns columns to themselves succeeds, whatever its condition is as long as it has a value on
each row, and it leaves all values as they were, up to NaNs. Columns are declared with bare names and, strings
apart, with the size of their type. -/
theorem Reached.update_identity (evaluates : ∀ tree ∈ filter, view.Evaluates db.stores tree) :
    ∃ db', db.execute (.update (.identity table columns filter)) = (.ok (), db') ∧ db.SameValues db' := by
  obtain ⟨writes, planned⟩ := reached.writes_identity isView distinct inSchema evaluates
  obtain ⟨db', done, exact⟩ :=
    Update.exact_of_writes (s := .identity table columns filter) reached.wellFormed isView planned
  exact ⟨db', done, exact.sameValues reached.sound reached.wellFormed isView inSchema⟩

end

def oddColumns : List Column :=
  [(Column.plain "id" .int 0).primaryKey, (Column.plain "x" .float 0).distinct, .plain "parent" .int 0,
    .plain "name" .varchar 3]

/-- Rows that refer to each other, with two NaNs and a negative zero in a unique column. -/
def oddNumbers : List Statement :=
  [.createTable ⟨"t", oddColumns, [⟨"parent", "t", "id", .noAction, .noAction⟩]⟩,
    .insert ⟨"t", none,
      [[.const (some (.int 1)), .const (some (.float (.ofBits 0x7F800001))), .const none,
          .const (some (.text "abc"))],
        [.const (some (.int 2)), .const (some (.double (.nan true))), .const (some (.int 1)), .const none],
        [.const (some (.int 3)), .const (some (.double (.zero true))), .const (some (.int 2)),
          .const (some (.text ""))]]⟩]

/-- The number is above one. -/
def aboveOne : Tree := .apply .gt [.field "id", .const (some (.int 1))]

theorem update_identity_oddNumbers :
    ∃ db', (afterAll oddNumbers).execute (.update (.identity "t" oddColumns aboveOne)) = (.ok (), db') ∧
      (afterAll oddNumbers).SameValues db' ∧
      db'.values "t" "parent" = [none, some (.int 1), some (.int 2)] := by
  have regular : ∀ s ∈ oddNumbers, s.Regular := by decide +kernel
  have reached : (afterAll oddNumbers).Reached fun _ s => s.Regular :=
    reached_afterAll fun s mem _ => regular s mem
  let view : TableView := ⟨"t", Schema.ofColumns oddColumns, 0⟩
  have isOnly : ((afterAll oddNumbers).tables.find? "t").map (fun t => (t.schema, t.store)) =
      some (Schema.ofColumns oddColumns, 0) := by decide +kernel
  obtain ⟨⟨_, _⟩, isTable, ⟨⟩⟩ := Option.map_eq_some_iff.1 isOnly
  have isView : (afterAll oddNumbers).view "t" none = .ok view := view_eq_ok.2 ⟨_, isTable, rfl⟩
  have isBound : (aboveOne.bind view.fieldCheck).isOk = true := by decide +kernel
  have haveValues : ∀ id ∈ (view.rows (afterAll oddNumbers).stores).ids,
      (aboveOne.value (view.read (afterAll oddNumbers).stores (some id))).isOk = true := by decide +kernel
  have evaluates : ∀ tree ∈ some aboveOne, view.Evaluates (afterAll oddNumbers).stores tree := by
    rintro _ ⟨⟩
    exact ⟨Checked.exists_of_isOk isBound, fun id mem => Checked.exists_of_isOk (haveValues id mem)⟩
  have after :
      ((afterAll oddNumbers).execute (.update (.identity "t" oddColumns aboveOne))).2.values "t" "parent" =
        [none, some (.int 1), some (.int 2)] := by decide +kernel
  have distinct : oddColumns.Nodup := by decide
  obtain ⟨db', done, same⟩ := reached.update_identity isView distinct (by decide) evaluates
  rw [done] at after
  exact ⟨db', done, same, after⟩

end Database

end RelEngine
