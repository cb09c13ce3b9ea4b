import RelEngine.Proofs.Database.Permits
import RelEngine.Statement.Insert

/-!
An INSERT adds a row of NULLs and then writes values that were checked before the row was there. In a
table that refers to itself the parents that were found are therefore other rows, which stay as they are.
-/
namespace RelEngine

/-! ## Adding a row -/

/-- The id of the row that is added next. -/
def TableView.nextId (view : TableView) (db : Database) : RowId := (view.rows db.stores).nextId

/-- The database with a row of NULLs in the table of the view. -/
def Database.addBlank (db : Database) (view : TableView) : Database :=
  db.updateRows view fun _ => ((view.rows db.stores).allocate (Row.blank view.schema)).1

namespace Database

variable {db : Database} {view : TableView} {table other field : String} {id : RowId} {v : Value}

theorem WellFormed.addBlank (wf : db.WellFormed) (isView : db.view table none = .ok view) :
    (db.addBlank view).WellFormed := by
  refine wf.updateRows isView fun id row found => ?_
  by_cases new : id = (view.rows db.stores).nextId
  · rw [new, RowStore.find?_allocate_self] at found
    cases found
    exact Row.length_blank _
  · rw [RowStore.find?_allocate_of_ne _ new] at found
    exact (wf.fits isView).whole id row found

/-- In the table itself the new row is all NULL, and the others are as before. -/
theorem reads_addBlank (wf : db.WellFormed) (isView : db.view table none = .ok view)
    (bare : FieldName.Bare field) (reads : (db.addBlank view).Reads table id field v) :
    if id = view.nextId db then v = none else db.Reads table id field v := by
  obtain ⟨row, found, isRead⟩ := (reads_updateRows wf isView bare).1 reads
  split
  · next new =>
    rw [new, TableView.nextId, RowStore.find?_allocate_self] at found
    cases found
    obtain ⟨slot, isSlot, _⟩ := Checked.bind_eq_ok.1 isRead
    rw [Row.get_blank (Schema.slot_eq_ok.1 isSlot)] at isRead
    exact (Except.ok.inj isRead).symm
  · next old =>
    rw [RowStore.find?_allocate_of_ne _ old] at found
    exact (reads_view isView bare).2 ⟨row, found, isRead⟩

/-- The new row has an id that no row had. -/
theorem Reads.ne_nextId (isView : db.view table none = .ok view)
    (reads : db.Reads table id field v) : id ≠ view.nextId db := by
  rintro rfl
  obtain ⟨view', isView', mem, _⟩ := reads
  cases isView.symm.trans isView'
  obtain ⟨row, found⟩ := RowStore.mem_ids_iff.1 mem
  exact nomatch RowStore.find?_nextId.symm.trans found

theorem Reads.addBlank (wf : db.WellFormed) (isView : db.view table none = .ok view)
    (bare : FieldName.Bare field) (reads : db.Reads other id field v) :
    (db.addBlank view).Reads other id field v := by
  by_cases same : other = table
  · rw [same] at reads ⊢
    have old := reads.ne_nextId isView
    obtain ⟨row, found, isRead⟩ := (reads_view isView bare).1 reads
    exact (reads_updateRows wf isView bare).2
      ⟨row, (RowStore.find?_allocate_of_ne _ old).trans found, isRead⟩
  · exact (reads_updateRows_of_ne wf isView same).2 reads

end Database

/-! ## Columns -/

namespace Schema

variable {schema : Schema}

theorem column_eq_ok {name : String} {c : Column} (h : schema.column name = .ok c) :
    c ∈ schema.columns ∧ c.name = name := by
  obtain ⟨slot, isSlot, eq⟩ := Checked.bind_eq_ok.1 h
  cases eq
  have found := slot_eq_ok.1 isSlot
  exact ⟨column_mem found, name_of_slot? found⟩

/-- The columns that are found are the named ones. -/
theorem targets_go_eq_ok {fields seen : List String} {columns : List Column}
    (h : targets.go schema seen fields = .ok columns) :
    columns.map (·.name) = fields ∧ ∀ c ∈ columns, c ∈ schema.columns := by
  induction fields generalizing seen columns with
  | nil =>
    cases h
    exact ⟨rfl, nofun⟩
  | cons field fields ih =>
    rw [targets.go] at h
    split at h
    · exact nomatch h
    · obtain ⟨c, isColumn, h⟩ := Checked.bind_eq_ok.1 h
      obtain ⟨rest, isRest, eq⟩ := Checked.bind_eq_ok.1 h
      cases eq
      obtain ⟨mem, name⟩ := column_eq_ok isColumn
      obtain ⟨names, others⟩ := ih isRest
      refine ⟨by rw [List.map_cons, name, names], fun other isMem => ?_⟩
      rcases List.mem_cons.1 isMem with rfl | isMem
      · exact mem
      · exact others other isMem

/-- No field is named twice. -/
theorem nodup_of_targets_go {fields seen : List String} {columns : List Column}
    (h : targets.go schema seen fields = .ok columns) : fields.Nodup := by
  have fresh : ∀ (fields seen : List String) (columns : List Column),
      targets.go schema seen fields = .ok columns → (∀ f ∈ fields, f ∉ seen) ∧ fields.Nodup := by
    intro fields
    induction fields with
    | nil => exact fun _ _ _ => ⟨nofun, .nil⟩
    | cons field fields ih =>
      intro seen columns h
      rw [targets.go] at h
      split at h
      · exact nomatch h
      · next notSeen =>
        obtain ⟨c, _, h⟩ := Checked.bind_eq_ok.1 h
        obtain ⟨rest, isRest, _⟩ := Checked.bind_eq_ok.1 h
        obtain ⟨later, nodup⟩ := ih _ _ isRest
        have first : field ∉ seen := fun mem => notSeen (List.contains_iff_mem.2 mem)
        constructor
        · intro f mem
          rcases List.mem_cons.1 mem with rfl | mem
          · exact first
          · exact fun isSeen => later f mem (List.mem_cons_of_mem _ isSeen)
        · exact List.nodup_cons.2 ⟨fun mem => later field mem List.mem_cons_self, nodup⟩
  exact (fresh fields seen columns h).2

theorem targets_some_eq_ok {fields : List String} {columns : List Column} :
    schema.targets (some fields) = .ok columns ↔ targets.go schema [] fields = .ok columns ∧
      schema.columns.find? (fun c => !c.nullable && !fields.contains c.name) = none := by
  rw [targets, Checked.bind_eq_ok]
  constructor
  · rintro ⟨found, isFound, h⟩
    split at h
    · cases h
    · next noneMissing =>
      cases h
      exact ⟨isFound, noneMissing⟩
  · rintro ⟨isFound, noneMissing⟩
    exact ⟨columns, isFound, by rw [noneMissing]; rfl⟩

theorem targets_eq_ok {fields : Option (List String)} {columns : List Column}
    (h : schema.targets fields = .ok columns) : ∀ c ∈ columns, c ∈ schema.columns := by
  cases fields with
  | none =>
    cases h
    exact fun _ mem => mem
  | some fields => exact (targets_go_eq_ok (targets_some_eq_ok.1 h).1).2

/-- Every column that is never NULL is asked for. -/
theorem mem_targets {fields : Option (List String)} {columns : List Column}
    (h : schema.targets fields = .ok columns) {c : Column} (mem : c ∈ schema.columns)
    (notNull : c.nullable = false) : c ∈ columns := by
  cases fields with
  | none =>
    cases h
    exact mem
  | some fields =>
    obtain ⟨isFound, noneMissing⟩ := targets_some_eq_ok.1 h
    have listed := List.find?_eq_none.1 noneMissing c mem
    rw [notNull, Bool.not_false, Bool.true_and, Bool.not_eq_true, Bool.not_eq_false',
      List.contains_iff_mem] at listed
    obtain ⟨names, inSchema⟩ := targets_go_eq_ok isFound
    rw [← names] at listed
    obtain ⟨d, isFound, sameName⟩ := List.mem_map.1 listed
    exact List.inj_on_of_nodup_map schema.nodup (inSchema d isFound) mem sameName ▸ isFound

end Schema

/-! ## Inserting -/

section

variable {db : Database} {view : TableView} {table : String} {columns : List Column}

/-- A value is accepted if it is what the column makes of the expression and passes both checks. -/
theorem Database.accepted_iff {c : Column} {tree : Tree} {v : Value} :
    db.accepted table c tree = .ok v ↔
      (∃ e raw, tree.bind .forbidden = .ok e ∧ e.eval db.stores noFields = .ok raw ∧
        c.normalize raw = .ok v) ∧
      db.checkUnique table c v = .ok () ∧ db.checkParents table c.name v = .ok () := by
  constructor
  · intro h
    obtain ⟨e, bound, h⟩ := Checked.bind_eq_ok.1 h
    obtain ⟨raw, isRaw, h⟩ := Checked.bind_eq_ok.1 h
    obtain ⟨value, isNormal, h⟩ := Checked.bind_eq_ok.1 h
    obtain ⟨⟨⟩, unique, h⟩ := Checked.bind_eq_ok.1 h
    obtain ⟨⟨⟩, parents, h⟩ := Checked.bind_eq_ok.1 h
    cases h
    exact ⟨⟨e, raw, bound, isRaw, isNormal⟩, unique, parents⟩
  · rintro ⟨⟨e, raw, bound, isRaw, isNormal⟩, unique, parents⟩
    rw [accepted, bound, Checked.ok_bind, isRaw, Checked.ok_bind, isNormal, Checked.ok_bind, unique,
      Checked.ok_bind, parents]
    rfl

/-- A value that was accepted for a column is new to it if the column is unique, and it has a parent in
each reference from the column. -/
theorem Database.accepted_eq_ok {c : Column} {tree : Tree} {v : Value}
    (h : db.accepted table c tree = .ok v) :
    db.checkUnique table c v = .ok () ∧ db.checkParents table c.name v = .ok () :=
  (accepted_iff.1 h).2

theorem Database.normalize_of_accepted {c : Column} {tree : Tree} {v : Value}
    (h : db.accepted table c tree = .ok v) : ∃ raw, c.normalize raw = .ok v := by
  obtain ⟨⟨_, raw, _, _, isNormal⟩, _⟩ := accepted_iff.1 h
  exact ⟨raw, isNormal⟩

namespace Rewrites

variable {db' : Database} {new : RowId → String → Value → Prop} {other field : String} {id : RowId}
  {v : Value}

/-- What could be read before the new row was there can be read once it has its values. -/
theorem reads_stays (wf : db.WellFormed) (isView : db.view table none = .ok view)
    (isNew : ∀ id field v, new id field v → id = view.nextId db)
    (h : Rewrites view new (db.addBlank view) db') (bare : FieldName.Bare field)
    (reads : db.Reads other id field v) : db'.Reads other id field v := by
  have isView₁ : (db.addBlank view).view table none = .ok view := isView
  have still := reads.addBlank wf isView bare
  by_cases same : other = table
  · cases same
    obtain ⟨w, isRead, rfl | written⟩ := h.reads_after isView₁ bare still
    · exact isRead
    · exact absurd (isNew _ _ _ written) (reads.ne_nextId isView)
  · exact (h.reads_other (wf.addBlank isView) isView₁ same).2 still

/-- A value that can be read afterwards stood there before, or it was written into the new row. -/
theorem reads_origin (wf : db.WellFormed) (isView : db.view table none = .ok view)
    (h : Rewrites view new (db.addBlank view) db') (bare : FieldName.Bare field)
    (reads : db'.Reads other id field v) (notNull : v ≠ none) :
    db.Reads other id field v ∨ other = table ∧ new id field v := by
  have isView₁ : (db.addBlank view).view table none = .ok view := isView
  by_cases same : other = table
  · cases same
    obtain ⟨old, isOld, rfl | written⟩ := h.reads_before isView₁ bare reads
    · have cases := Database.reads_addBlank wf isView bare isOld
      split at cases
      · exact absurd cases notNull
      · exact .inl cases
    · exact .inr ⟨rfl, written⟩
  · have still := (h.reads_other (wf.addBlank isView) isView₁ same).1 reads
    exact .inl ((Database.reads_updateRows_of_ne wf isView same).1 still)

/-- A new row keeps every reference satisfied. The parents that were found for its values stay. -/
theorem keeps_addBlank (wf : db.WellFormed) (isView : db.view table none = .ok view)
    (isNew : ∀ id field v, new id field v → id = view.nextId db ∧
      db.checkParents table field v = .ok ())
    (h : Rewrites view new (db.addBlank view) db') : db.Keeps (fun _ => True) db' := by
  refine ⟨(wf.addBlank isView).rewrites h, h.tables, h.references, fun r mem _ before => ?_⟩
  obtain ⟨childBare, parentBare⟩ := wf.references r mem
  intro id v isChild notNull
  have found : ∃ parent w, db.Reads r.parentTable parent r.parentField w ∧ Value.Equals v w := by
    rcases h.reads_origin wf isView childBare isChild notNull with old | ⟨here, written⟩
    · exact before id v old notNull
    · have isHere := Reference.hasChild_self here
      exact Database.checkParents_eq_ok (isNew _ _ _ written).2 notNull mem isHere
  obtain ⟨parent, w, isParent, equals⟩ := found
  exact ⟨parent, w, h.reads_stays wf isView (fun _ _ _ n => (isNew _ _ _ n).1) parentBare isParent,
    equals⟩

end Rewrites

/-- The value was accepted for one of the columns, which has this name. -/
def Database.AcceptsAs (db : Database) (table : String) (columns : List Column) (field : String)
    (v : Value) : Prop :=
  ∃ c ∈ columns, c.name = field ∧ ∃ tree, db.accepted table c tree = .ok v

/-- Whatever becomes of a new row, it holds only values that were accepted before it was there. -/
theorem TableView.insertRow_rewrites (wf : db.WellFormed) (isView : db.view table none = .ok view)
    (inSchema : ∀ c ∈ columns, c ∈ view.schema.columns) (row : List Tree) :
    ((view.insertRow table columns row).runFrom db).2 = db ∨
      Rewrites view (fun id field v => id = view.nextId db ∧ db.AcceptsAs table columns field v)
        (db.addBlank view) ((view.insertRow table columns row).runFrom db).2 := by
  let P (db' : Database) : Prop := db' = db ∨
    Rewrites view (fun id field v => id = view.nextId db ∧ db.AcceptsAs table columns field v)
      (db.addBlank view) db'
  change P ((view.insertRow table columns row).runFrom db).2
  refine Move.state_bind_result (Move.runFrom_get db) (.inl rfl) fun _ eq => ?_
  cases eq
  refine Move.state_bind_result
    (Move.runFrom_mapM_lift (fun e : Column × Tree => db.accepted table e.1 e.2) _ _) (.inl rfl)
    fun values isValues => ?_
  change P ((view.setAll (view.nextId db) (columns.zip values)).runFrom (db.addBlank view)).2
  rw [TableView.setAll_eq]
  have fits := (wf.addBlank isView).fits (show (db.addBlank view).view table none = .ok view from isView)
  right
  apply Rewrites.writeAll fits
  · intro w mem
    obtain ⟨e, inZip, rfl⟩ := List.mem_map.1 mem
    exact inSchema _ (List.of_mem_zip inZip).1
  · intro w mem
    obtain ⟨e, inZip, rfl⟩ := List.mem_map.1 mem
    exact ⟨rfl, e.1, (List.of_mem_zip inZip).1, rfl, Checked.of_mem_zip_mapM isValues e inZip⟩

theorem TableView.insertRow_keeps (wf : db.WellFormed) (isView : db.view table none = .ok view)
    (inSchema : ∀ c ∈ columns, c ∈ view.schema.columns) (row : List Tree) :
    db.Keeps (fun _ => True) ((view.insertRow table columns row).runFrom db).2 := by
  rcases insertRow_rewrites wf isView inSchema row with same | written
  · rw [same]
    exact .refl wf
  · refine written.keeps_addBlank wf isView ?_
    rintro id field v ⟨isNew, c, _, rfl, tree, accepted⟩
    exact ⟨isNew, (Database.accepted_eq_ok accepted).2⟩

/-- An INSERT is refused as a whole, for its table, its columns or the number of its values, or its rows are
added in turn. -/
theorem Insert.run_cases (s : Insert) (db : Database) :
    (∃ e, s.run.runFrom db = (.error e, db) ∧ (db.schema s.table = .error e ∨
      (∃ schema, db.schema s.table = .ok schema ∧ schema.targets s.fields = .error e) ∨
      ∃ schema columns trees, db.schema s.table = .ok schema ∧ schema.targets s.fields = .ok columns ∧
        trees ∈ s.rows ∧ trees.length ≠ columns.length ∧
        e = .invalidQuery (.wrongArity columns.length trees.length))) ∨
    ∃ view columns, db.view s.table none = .ok view ∧ view.schema.targets s.fields = .ok columns ∧
      (∀ trees ∈ s.rows, trees.length = columns.length) ∧
      s.run.runFrom db = (s.rows.forM (view.insertRow s.table columns)).runFrom db := by
  rw [Insert.run, Move.runFrom_bind_ok (Move.runFrom_get db)]
  cases isSchema : db.schema s.table with
  | error e => exact .inl ⟨e, rfl, .inl rfl⟩
  | ok schema =>
    obtain ⟨t, isTable, eq⟩ := Checked.bind_eq_ok.1 isSchema
    cases eq
    have isView : db.view s.table none = .ok ⟨s.table, t.schema, t.store⟩ :=
      Database.view_eq_ok.2 ⟨t, Database.table_eq_ok.1 isTable, rfl⟩
    rw [Move.runFrom_bind_ok (Move.runFrom_lift _ db)]
    cases isTargets : t.schema.targets s.fields with
    | error e => exact .inl ⟨e, rfl, .inr (.inl ⟨t.schema, rfl, isTargets⟩)⟩
    | ok columns =>
      rw [Move.runFrom_bind_ok (Move.runFrom_lift _ db)]
      split
      · next trees isOff =>
        have mem := List.mem_of_find?_eq_some isOff
        have off : (trees.length != columns.length) = true := by simpa using List.find?_some isOff
        exact .inl ⟨_, rfl, .inr (.inr ⟨t.schema, columns, trees, rfl, isTargets, mem, bne_iff_ne.1 off, rfl⟩)⟩
      · next allWhole =>
        refine .inr ⟨_, columns, isView, isTargets, fun trees mem => ?_, ?_⟩
        · have whole := List.find?_eq_none.1 allWhole trees mem
          rw [Bool.not_eq_true, bne_eq_false_iff_eq] at whole
          exact whole
        · rw [isView, Move.runFrom_bind_ok (Move.runFrom_lift _ db)]

/-- The columns that an INSERT has values for. -/
def Database.targets (db : Database) (s : Insert) : Checked (List Column) := do
  (← db.schema s.table).targets s.fields

theorem Database.targets_eq_ok {s : Insert} (h : db.targets s = .ok columns) :
    ∃ view, db.view s.table none = .ok view ∧ view.schema.targets s.fields = .ok columns := by
  obtain ⟨schema, isSchema, isTargets⟩ := Checked.bind_eq_ok.1 h
  obtain ⟨t, isTable, eq⟩ := Checked.bind_eq_ok.1 isSchema
  cases eq
  exact ⟨⟨s.table, t.schema, t.store⟩, view_eq_ok.2 ⟨t, table_eq_ok.1 isTable, rfl⟩, isTargets⟩

/-- Without columns an INSERT is refused. -/
theorem Insert.runFrom_of_no_targets {s : Insert} {e : Error} (h : db.targets s = .error e) :
    s.run.runFrom db = (.error e, db) := by
  rw [Insert.run, Move.runFrom_bind_ok (Move.runFrom_get db)]
  rcases Checked.bind_eq_error.1 h with noTable | ⟨schema, isSchema, noColumns⟩
  · rw [noTable]
    rfl
  · rw [isSchema, Move.runFrom_bind_ok (Move.runFrom_lift _ db), noColumns]
    rfl

/-- With as many values as columns in each row the rows are added in turn. -/
theorem Insert.runFrom_of_targets {s : Insert} (isView : db.view s.table none = .ok view)
    (isTargets : view.schema.targets s.fields = .ok columns)
    (arity : ∀ trees ∈ s.rows, trees.length = columns.length) :
    s.run.runFrom db = (s.rows.forM (view.insertRow s.table columns)).runFrom db := by
  obtain ⟨t, isTable, rfl⟩ := Database.view_eq_ok.1 isView
  have isSchema := Database.schema_eq_ok isTable
  rcases s.run_cases db with ⟨e, -, noTable | ⟨schema, isOwn, noColumns⟩ | off⟩ |
    ⟨view', found, isView', isTargets', -, run⟩
  · cases isSchema.symm.trans noTable
  · cases isSchema.symm.trans isOwn
    cases isTargets.symm.trans noColumns
  · obtain ⟨schema, found, trees, isOwn, isFound, mem, off, -⟩ := off
    cases isSchema.symm.trans isOwn
    cases isTargets.symm.trans isFound
    exact absurd (arity trees mem) off
  · cases isView.symm.trans isView'
    cases isTargets.symm.trans isTargets'
    exact run

/-- What each new row keeps is kept by an INSERT, whichever of its rows are refused. Each row has an
expression for every column that is asked for. -/
theorem Insert.run_targets {P : Database → Prop} (s : Insert) (start : P db)
    (row : ∀ view columns, db.view s.table none = .ok view →
      view.schema.targets s.fields = .ok columns → ∀ row, row.length = columns.length → ∀ db', P db' →
      P ((view.insertRow s.table columns row).runFrom db').2) : P (s.run.runFrom db).2 := by
  rcases s.run_cases db with ⟨e, refused, -⟩ | ⟨view, columns, isView, isTargets, arity, run⟩
  · rw [refused]
    exact start
  · rw [run]
    exact Move.forM_invariant (fun tree mem => row view columns isView isTargets tree (arity tree mem)) start

theorem Insert.run_invariant {P : Database → Prop} (s : Insert) (start : P db)
    (row : ∀ view columns, db.view s.table none = .ok view →
      (∀ c ∈ columns, c ∈ view.schema.columns) → ∀ row db', P db' →
      P ((view.insertRow s.table columns row).runFrom db').2) : P (s.run.runFrom db).2 :=
  s.run_targets start fun view columns isView isTargets tree _ =>
    row view columns isView (Schema.targets_eq_ok isTargets) tree

/-- An INSERT keeps references satisfied, whichever of its rows are refused. -/
theorem Insert.keeps (wf : db.WellFormed) (s : Insert) :
    db.Keeps (fun _ => True) (s.run.runFrom db).2 := by
  refine s.run_invariant (P := db.Keeps fun _ => True) (.refl wf) ?_
  intro view columns isView inSchema row db' soFar
  have isView' := (Database.view_congr soFar.tables).trans isView
  exact soFar.trans (TableView.insertRow_keeps soFar.wellFormed isView' inSchema row)

end

end RelEngine
