import RelEngine.Proofs.Row.Canonical
import RelEngine.Proofs.Statement.Steps
import RelEngine.Proofs.Tree.Storeless

/-!
The rows that an INSERT adds. A row is put there blank and filled in field by field, so it is complete only
if no write fails on the way. Nothing that a column takes is refused in writing, and a column whose name is
not taken for a qualified one is found; so a statement that stops midway leaves whole rows behind.
-/
namespace RelEngine

/-! ## Filling in a row -/

/-- Writes values into the fields of a packed row, one after the other. -/
def Row.fill (schema : Schema) (row : Bytes) (fields : List (Column × Value)) : Checked Bytes :=
  fields.foldlM (fun row e => Row.set schema row e.1.name e.2) row

/-- Values that the columns take are all written, each into its own field. -/
theorem Row.fill_eq_ok {schema : Schema} (sized : ∀ c ∈ schema.columns, c.Sized)
    {fields : List (Column × Value)} (inSchema : ∀ e ∈ fields, e.1 ∈ schema.columns)
    (normal : ∀ e ∈ fields, ∃ raw, e.1.normalize raw = .ok e.2)
    (distinct : (fields.map (·.1.name)).Nodup) {row : Bytes} (whole : row.length = schema.rowSize) :
    ∃ row', Row.fill schema row fields = .ok row' ∧ row'.length = schema.rowSize ∧
      (∀ e ∈ fields, Row.get schema row' e.1.name = .ok e.2) ∧
      ∀ name, name ∉ fields.map (·.1.name) → Row.get schema row' name = Row.get schema row name := by
  induction fields generalizing row with
  | nil => exact ⟨row, rfl, whole, nofun, fun _ _ => rfl⟩
  | cons e fields ih =>
    obtain ⟨fresh, distinct⟩ := List.nodup_cons.1 distinct
    obtain ⟨raw, isNormal⟩ := normal e List.mem_cons_self
    obtain ⟨next, isSet⟩ := Row.set_of_normal (inSchema e List.mem_cons_self) isNormal row
    obtain ⟨row', isFilled, whole', written, others⟩ := ih
      (fun e mem => inSchema e (List.mem_cons_of_mem _ mem))
      (fun e mem => normal e (List.mem_cons_of_mem _ mem)) distinct (Row.length_set sized whole isSet)
    refine ⟨row', Checked.bind_eq_ok.2 ⟨next, isSet, isFilled⟩, whole', ?_, fun name absent => ?_⟩
    · intro other mem
      rcases List.mem_cons.1 mem with rfl | mem
      · rw [others _ fresh]
        exact Row.get_set_same sized whole isSet
      · exact written other mem
    · rw [List.map_cons, List.mem_cons, not_or] at absent
      rw [others name absent.2]
      exact Row.get_set_other sized whole isSet absent.1

/-- The value that a column takes of an expression without fields. -/
def Column.given (c : Column) (tree : Tree) : Checked Value := do
  c.normalize (← (← tree.bind .forbidden).eval [] noFields)

/-- The row is complete: a column that is asked for holds what it takes of its expression, and the others are
NULL. -/
structure Row.Completes (schema : Schema) (columns : List Column) (trees : List Tree) (row : Bytes) :
    Prop where
  whole : row.length = schema.rowSize
  given : List.Forall₂ (fun c tree => ∃ v, c.given tree = .ok v ∧ Row.get schema row c.name = .ok v)
    columns trees
  blank : ∀ c ∈ schema.columns, c ∉ columns → Row.get schema row c.name = .ok none

/-! ## Adding rows -/

/-- The database with one more row in the table of the view. -/
def Database.addRow (db : Database) (view : TableView) (row : Bytes) : Database :=
  db.updateRows view fun rows => (rows.allocate row).1

/-- The table of the view has these rows more, under the next ids, and nothing else is different. -/
structure Database.Appends (db : Database) (view : TableView) (new : List Bytes) (db' : Database) :
    Prop where
  tables : db'.tables = db.tables
  references : db'.references = db.references
  length : db'.stores.length = db.stores.length
  others : ∀ store, store ≠ view.store → db'.stores.rowsAt store = db.stores.rowsAt store
  rows : (view.rows db'.stores).rows.entries =
    (view.rows db.stores).rows.entries ++ (new.zipIdx (view.nextId db)).map Prod.swap
  nextId : view.nextId db' = view.nextId db + new.length

namespace Database

variable {db db' : Database} {view : TableView} {table : String}

theorem Appends.refl : db.Appends view [] db := ⟨rfl, rfl, rfl, fun _ _ => rfl, by simp, rfl⟩

theorem Appends.cons {row : Bytes} {new : List Bytes} (inside : view.store < db.stores.length)
    (h : (db.addRow view row).Appends view new db') : db.Appends view (row :: new) db' := by
  have now : view.rows (db.addRow view row).stores = ((view.rows db.stores).allocate row).1 :=
    rows_updateRows inside
  have next : view.nextId (db.addRow view row) = view.nextId db + 1 := by
    rw [TableView.nextId, now, RowStore.nextId_allocate]
    rfl
  refine ⟨h.tables, h.references, h.length.trans length_updateRows, fun store differ => ?_, ?_, ?_⟩
  · exact (h.others store differ).trans (rowsAt_updateRows_of_ne differ)
  · rw [h.rows, next, now, RowStore.entries_allocate, List.append_assoc]
    rfl
  · rw [h.nextId, next, List.length_cons, Nat.add_assoc, Nat.add_comm 1]

theorem addBlank_eq (db : Database) (view : TableView) :
    db.addBlank view = db.addRow view (Row.blank view.schema) :=
  congrArg (fun stores => { db with stores })
    (Stores.update_rowsAt db.stores view.store fun rows => (rows.allocate (Row.blank view.schema)).1)

/-- To write a field of the row that was added last is to have added it with the field written. -/
theorem write_addRow (inside : view.store < db.stores.length) {name : String} {value : Value}
    {row row' : Bytes} (resolved : view.resolve name = .ok name)
    (isSet : Row.set view.schema row name value = .ok row') :
    view.write (db.addRow view row).stores (some (view.nextId db)) name value =
      .ok (db.addRow view row').stores := by
  have now : view.rows (db.addRow view row).stores = ((view.rows db.stores).allocate row).1 :=
    rows_updateRows inside
  have found : (view.rows (db.addRow view row).stores).find? (view.nextId db) = some row := by
    rw [now]
    exact RowStore.find?_allocate_self row
  have changed : (db.addRow view row).stores.update view.store
      (·.modify (view.nextId db) fun _ => row') = (db.addRow view row').stores := by
    have each := Stores.update_rowsAt db.stores view.store
    change (db.stores.update view.store _).update view.store _ = db.stores.update view.store _
    rw [Stores.update_update, ← each fun rows => (rows.allocate row').1, ← each]
    exact congrArg (fun rows => db.stores.update view.store fun _ => rows)
      (RowStore.modify_allocate row row')
  rw [TableView.write, resolved, Checked.ok_bind]
  simp only [found, isSet, Checked.ok_bind, changed]
  rfl

theorem runFrom_setAll_addRow (inside : view.store < db.stores.length)
    {fields : List (Column × Value)} (resolved : ∀ e ∈ fields, view.resolve e.1.name = .ok e.1.name)
    {row row' : Bytes} (isFilled : Row.fill view.schema row fields = .ok row') :
    (view.setAll (view.nextId db) fields).runFrom (db.addRow view row) =
      (.ok (), db.addRow view row') := by
  induction fields generalizing row with
  | nil =>
    cases isFilled
    rfl
  | cons e fields ih =>
    obtain ⟨next, isSet, isFilled⟩ := Checked.bind_eq_ok.1 isFilled
    have isWritten := write_addRow inside (resolved e List.mem_cons_self) isSet
    rw [TableView.setAll_eq, List.map_cons, TableView.runFrom_writeAll_cons, isWritten,
      ← TableView.setAll_eq]
    exact ih (fun e mem => resolved e (List.mem_cons_of_mem _ mem)) isFilled

/-- The value that was accepted is the one that the column takes. -/
theorem given_of_accepted {c : Column} {tree : Tree} {v : Value}
    (h : db.accepted table c tree = .ok v) : c.given tree = .ok v := by
  obtain ⟨⟨e, raw, bound, isRaw, isNormal⟩, -⟩ := accepted_iff.1 h
  rw [Tree.storeless_bind tree bound db.stores []] at isRaw
  rw [Column.given, bound, Checked.ok_bind, isRaw, Checked.ok_bind, isNormal]

end Database

/-! ## Inserting -/

section

variable {db db' : Database} {view : TableView} {table : String} {columns : List Column}

/-- What an INSERT makes sure of before its first row: different columns of the table, which are found under
their names. -/
structure TableView.Asks (view : TableView) (columns : List Column) : Prop where
  inSchema : ∀ c ∈ columns, c ∈ view.schema.columns
  distinct : (columns.map (·.name)).Nodup
  bare : ∀ c ∈ columns, FieldName.Bare c.name

/-- A row with a value that is refused is not added. -/
theorem TableView.insertRow_refused (view : TableView) {trees : List Tree} {e : Error}
    (refused : (columns.zip trees).mapM (fun e => db.accepted table e.1 e.2) = .error e) :
    (view.insertRow table columns trees).runFrom db = (.error e, db) := by
  have checks := Move.runFrom_mapM_lift (fun e : Column × Tree => db.accepted table e.1 e.2)
    (columns.zip trees) db
  rw [refused] at checks
  rw [insertRow, Move.runFrom_bind_ok (Move.runFrom_get db)]
  exact Move.runFrom_bind_error checks

/-- A row is refused before anything is done, or it is added with all of its values. -/
theorem TableView.runFrom_insertRow (table : String) (inside : view.store < db.stores.length)
    (sized : ∀ c ∈ view.schema.columns, c.Sized) (asks : view.Asks columns) {trees : List Tree}
    (arity : trees.length = columns.length) :
    (∃ e, (columns.zip trees).mapM (fun e => db.accepted table e.1 e.2) = .error e ∧
      (view.insertRow table columns trees).runFrom db = (.error e, db)) ∨
    ∃ row, Row.Completes view.schema columns trees row ∧
      (view.insertRow table columns trees).runFrom db = (.ok (), db.addRow view row) := by
  cases accepted : (columns.zip trees).mapM (fun e => db.accepted table e.1 e.2) with
  | error e => exact .inl ⟨e, rfl, view.insertRow_refused accepted⟩
  | ok values =>
    right
    have checks := Move.runFrom_mapM_lift (fun e : Column × Tree => db.accepted table e.1 e.2)
      (columns.zip trees) db
    rw [accepted] at checks
    rw [insertRow, Move.runFrom_bind_ok (Move.runFrom_get db)]
    have length := Checked.length_of_zip_mapM accepted arity
    have names : (columns.zip values).map (·.1.name) = columns.map (·.name) := by
      have firsts := List.map_fst_zip (Nat.le_of_eq length)
      exact (List.map_map (l := columns.zip values)).symm.trans (congrArg (List.map (·.name)) firsts)
    have isColumn : ∀ e ∈ columns.zip values, e.1 ∈ columns := fun e mem => (List.of_mem_zip mem).1
    have normal : ∀ e ∈ columns.zip values, ∃ raw, e.1.normalize raw = .ok e.2 := by
      intro e mem
      obtain ⟨tree, isAccepted⟩ := Checked.of_mem_zip_mapM accepted e mem
      exact Database.normalize_of_accepted isAccepted
    obtain ⟨row, isFilled, whole, written, others⟩ := Row.fill_eq_ok sized
      (fun e mem => asks.inSchema _ (isColumn e mem)) normal (names ▸ asks.distinct)
      (Row.length_blank view.schema)
    refine ⟨row, ⟨whole, ?_, fun c mem absent => ?_⟩, ?_⟩
    · refine Checked.forall₂_of_zip_mapM accepted arity fun c tree v mem isAccepted => ?_
      exact ⟨v, Database.given_of_accepted isAccepted, written (c, v) mem⟩
    · obtain ⟨slot, isSlot, _⟩ := Schema.slot?_of_mem mem
      refine (others c.name fun isField => absent ?_).trans (Row.get_blank isSlot)
      rw [names] at isField
      obtain ⟨d, isTarget, sameName⟩ := List.mem_map.1 isField
      exact List.inj_on_of_nodup_map view.schema.nodup (asks.inSchema d isTarget) mem sameName ▸ isTarget
    · rw [Move.runFrom_bind_ok checks]
      have resolved : ∀ e ∈ columns.zip values, view.resolve e.1.name = .ok e.1.name := by
        intro e mem
        have has := Schema.has_iff.2 (List.mem_map_of_mem (f := (·.name)) (asks.inSchema _ (isColumn e mem)))
        exact TableView.resolve_of_bare (asks.bare _ (isColumn e mem)) has
      have filled := Database.runFrom_setAll_addRow inside resolved isFilled
      rw [← Database.addBlank_eq] at filled
      exact filled

/-- The rows are added up to the first one that is refused. The induction is on the rows, over any database
that the rows before them left. -/
theorem TableView.runFrom_insertRows (table : String) (inside : view.store < db.stores.length)
    (sized : ∀ c ∈ view.schema.columns, c.Sized) (asks : view.Asks columns) {rows : List (List Tree)}
    (arity : ∀ trees ∈ rows, trees.length = columns.length) :
    (∃ new db', List.Forall₂ (Row.Completes view.schema columns) rows new ∧ db.Appends view new db' ∧
      (rows.forM (view.insertRow table columns)).runFrom db = (.ok (), db')) ∨
    ∃ before trees after e new db', rows = before ++ trees :: after ∧
      List.Forall₂ (Row.Completes view.schema columns) before new ∧ db.Appends view new db' ∧
      (columns.zip trees).mapM (fun e => db'.accepted table e.1 e.2) = .error e ∧
      (rows.forM (view.insertRow table columns)).runFrom db = (.error e, db') := by
  induction rows generalizing db with
  | nil => exact .inl ⟨[], db, .nil, .refl, rfl⟩
  | cons trees rows ih =>
    rw [List.forM]
    rcases runFrom_insertRow table inside sized asks (arity trees List.mem_cons_self) with
      ⟨e, refused, stopped⟩ | ⟨row, completes, added⟩
    · rw [Move.runFrom_bind_error stopped]
      exact .inr ⟨[], trees, rows, e, [], db, rfl, .nil, .refl, refused, rfl⟩
    · rw [Move.runFrom_bind_ok added]
      have inside' : view.store < (db.addRow view row).stores.length := by
        rw [Database.addRow, Database.length_updateRows]
        exact inside
      rcases ih inside' (fun trees mem => arity trees (List.mem_cons_of_mem _ mem)) with
        ⟨new, db', complete, appends, done⟩ |
          ⟨before, refusedRow, after, e, new, db', rfl, complete, appends, refused, stopped⟩
      · exact .inl ⟨row :: new, db', .cons completes complete, appends.cons inside, done⟩
      · exact .inr ⟨trees :: before, refusedRow, after, e, row :: new, db', rfl, .cons completes complete,
          appends.cons inside, refused, stopped⟩

theorem Schema.nodup_targets {schema : Schema} {fields : Option (List String)}
    (h : schema.targets fields = .ok columns) : (columns.map (·.name)).Nodup := by
  cases fields with
  | none =>
    cases h
    exact schema.nodup
  | some fields =>
    have isFound := (targets_some_eq_ok.1 h).1
    rw [(targets_go_eq_ok isFound).1]
    exact nodup_of_targets_go isFound

/-- An INSERT whose columns are found under their names stops before its first row, or it stops at one that
the checks refuse. Then the rows before that one are there, complete and under the next ids, and nothing else
is different. Strings apart, all columns were declared with the size of their type. -/
theorem Database.Reached.insert_stopped {s : Insert} {e : Error}
    (reached : db.Reached fun _ s => s.Declares Column.Sized)
    (bare : ∀ schema columns, db.schema s.table = .ok schema → schema.targets s.fields = .ok columns →
      ∀ c ∈ columns, FieldName.Bare c.name)
    (stopped : db.execute (.insert s) = (.error e, db')) :
    db' = db ∨ ∃ view columns before trees after new, db.view s.table none = .ok view ∧
      view.schema.targets s.fields = .ok columns ∧ s.rows = before ++ trees :: after ∧
      List.Forall₂ (Row.Completes view.schema columns) before new ∧ db.Appends view new db' ∧
      (columns.zip trees).mapM (fun e => db'.accepted s.table e.1 e.2) = .error e := by
  have placed := reached.placed
  have laid := reached.laid fun _ sized => sized
  change s.run.runFrom db = _ at stopped
  rcases s.run_cases db with ⟨x, refused, -⟩ | ⟨view, columns, isView, isTargets, arity, run⟩
  · rw [refused] at stopped
    exact .inl (Prod.mk.inj stopped).2.symm
  · obtain ⟨t, isTable, rfl⟩ := view_eq_ok.1 isView
    have isSchema := schema_eq_ok isTable
    have asks : TableView.Asks ⟨s.table, t.schema, t.store⟩ columns :=
      ⟨Schema.targets_eq_ok isTargets, Schema.nodup_targets isTargets,
        bare t.schema columns isSchema isTargets⟩
    rw [run] at stopped
    rcases TableView.runFrom_insertRows s.table (placed.inside isTable)
        (laid.columns isTable) asks arity with
      ⟨new, _, _, _, done⟩ | ⟨before, trees, after, x, new, _, isRows, complete, appends, refused, ended⟩
    · cases done.symm.trans stopped
    · cases ended.symm.trans stopped
      exact .inr ⟨_, columns, before, trees, after, new, isView, isTargets, isRows, complete, appends,
        refused⟩

end

/-- A table whose first column may not be NULL. -/
def CreateTable.strict : CreateTable where
  table := "t"
  columns := [(Column.plain "a" .int 0).notNull, .plain "b" .varchar 3]
  foreignKeys := []

/-- Two rows, and a third one without a value for the first column. -/
def Insert.lastIncomplete : Insert where
  table := "t"
  fields := some ["b", "a"]
  rows := [[.const (some (.text "x")), .const (some (.int 1))],
    [.const none, .const (some (.bool true))], [.const (some (.text "y")), .const none]]

theorem Database.insert_stopped_lastIncomplete :
    ∃ db', (afterAll [.createTable .strict]).execute (.insert .lastIncomplete) =
        (.error (.notNullViolation "a"), db') ∧
      (db' = afterAll [.createTable .strict] ∨ ∃ view columns before trees after new,
        (afterAll [.createTable .strict]).view "t" none = .ok view ∧
        view.schema.targets (some ["b", "a"]) = .ok columns ∧
        Insert.lastIncomplete.rows = before ++ trees :: after ∧
        List.Forall₂ (Row.Completes view.schema columns) before new ∧
        (afterAll [.createTable .strict]).Appends view new db' ∧
        (columns.zip trees).mapM (fun e => db'.accepted "t" e.1 e.2) =
          .error (.notNullViolation "a")) := by
  have reached : (afterAll [.createTable .strict]).Reached fun _ s => s.Declares Column.Sized :=
    reached_afterAll (List.forall_mem_singleton.2 fun _ => by decide)
  have refused : ((afterAll [.createTable .strict]).execute (.insert .lastIncomplete)).1 =
      .error (.notNullViolation "a") := by decide +kernel
  have isSchema : (afterAll [.createTable .strict]).schema "t" =
      .ok (.ofColumns CreateTable.strict.columns) := by decide +kernel
  refine ⟨_, Prod.ext refused rfl, reached.insert_stopped (s := .lastIncomplete) ?_ (Prod.ext refused rfl)⟩
  intro schema columns isOwn isTargets
  cases isSchema.symm.trans isOwn
  have named : ∀ c ∈ (Schema.ofColumns CreateTable.strict.columns).columns, FieldName.Bare c.name := by
    decide +kernel
  exact fun c mem => named c (Schema.targets_eq_ok isTargets c mem)

/-- A column whose name is taken for a qualified one is not found when its value is written, and the blank row
stays. -/
example :
    let db := Database.afterAll
      [.createTable ⟨"t", [(Column.plain "x.y" .int 0).notNull], []⟩,
        .insert ⟨"t", none, [[.const (some (.int 1))]]⟩]
    db.listRows "t" = .ok [[.ok none]] := by
  decide +kernel

end RelEngine
