import RelEngine.Proofs.Row.Canonical
import RelEngine.Proofs.Statement.References

/-!
Stored rows along the runs of a database. A new row starts with nothing but NULLs, also where NULL is not
allowed; that it is filled in before the statement ends rests on the checks made for its values, which
leave no reason for a write to fail.
-/
namespace RelEngine

variable {db db' : Database} {view : TableView} {table : String}

/-! ## Writing -/

/-- The rows of the view are sound but for the fields that are still to be filled in. -/
def TableView.Sound (view : TableView) (isOpen : RowId → String → Prop) (stores : Stores) : Prop :=
  ∀ id row, (view.rows stores).find? id = some row → Row.Sound view.schema (isOpen id) row

/-- The value is one that the column takes. -/
def Write.Normal (w : Write) : Prop := ∃ raw, w.column.normalize raw = .ok w.value

namespace TableView

variable {isOpen : RowId → String → Prop} {w : Write} {writes : List Write}

theorem Sound.write {stores : Stores} (h : view.Sound isOpen db.stores) (fits : view.Fits db)
    (inSchema : w.column ∈ view.schema.columns) (normal : w.Normal)
    (isWritten : view.write db.stores (some w.id) w.column.name w.value = .ok stores) :
    view.Sound (fun id name => isOpen id name ∧ ¬ (id = w.id ∧ name = w.column.name)) stores := by
  have sized : ∀ c ∈ view.schema.columns, c.Sized := fun c mem => (fits.regular c mem).sized
  obtain ⟨row, row', found, isSet, rfl⟩ := write_eq_ok (fits.regular _ inSchema).bare isWritten
  have now : view.rows (db.stores.update view.store (·.modify w.id fun _ => row')) =
      (view.rows db.stores).modify w.id fun _ => row' :=
    Stores.rowsAt_update_self _ fits.inside
  intro id stored isStored
  rw [now] at isStored
  by_cases same : id = w.id
  · subst same
    rw [RowStore.find?_modify_self, found] at isStored
    cases isStored
    refine ((h _ row found).set sized isSet fun slot isSlot isNone => ?_).weaken ?_
    · have isColumn := Schema.column_mem isSlot
      have sameColumn : slot.column = w.column :=
        List.inj_on_of_nodup_map view.schema.nodup isColumn inSchema (Schema.name_of_slot? isSlot)
      obtain ⟨raw, isNormal⟩ := normal
      exact sameColumn ▸ (Column.normalize_eq_ok isNormal).1 isNone
    · rintro name slot _ _ ⟨isOpen, differ⟩
      exact ⟨isOpen, fun here => differ here.2⟩
  · rw [RowStore.find?_modify_of_ne _ same] at isStored
    refine (h id stored isStored).weaken ?_
    intro name slot _ _ isOpen
    exact ⟨isOpen, fun here => same here.1⟩

/-- A value that the column takes can be written into any row that is there. -/
theorem write_of_normal (fits : view.Fits db) (inSchema : w.column ∈ view.schema.columns)
    (normal : w.Normal) (isRow : w.id ∈ (view.rows db.stores).ids) :
    ∃ stores, view.write db.stores (some w.id) w.column.name w.value = .ok stores := by
  obtain ⟨row, found⟩ := RowStore.mem_ids_iff.1 isRow
  obtain ⟨raw, isNormal⟩ := normal
  obtain ⟨row', isSet⟩ := Row.set_of_normal inSchema isNormal row
  have has : view.schema.has w.column.name = true := Schema.has_iff.2 (List.mem_map_of_mem inSchema)
  refine ⟨db.stores.update view.store (·.modify w.id fun _ => row'), ?_⟩
  rw [TableView.write, resolve_of_bare (fits.regular _ inSchema).bare has, Checked.ok_bind]
  simp only [found, isSet]
  rfl

/-- Values that the columns take are all written into rows that are there. -/
theorem writeAll_of_normal (fits : view.Fits db)
    (inSchema : ∀ w ∈ writes, w.column ∈ view.schema.columns) (normal : ∀ w ∈ writes, w.Normal)
    (areRows : ∀ w ∈ writes, w.id ∈ (view.rows db.stores).ids) :
    ∃ db', (view.writeAll writes).runFrom db = (.ok (), db') := by
  induction writes generalizing db with
  | nil => exact ⟨db, rfl⟩
  | cons w writes ih =>
    have isFirst := inSchema w List.mem_cons_self
    obtain ⟨stores, isWritten⟩ := write_of_normal fits isFirst (normal w List.mem_cons_self)
      (areRows w List.mem_cons_self)
    have step : Rewrites view (fun _ _ _ => True) db { db with stores } :=
      .write fits (fits.regular _ isFirst).bare trivial isWritten
    rw [runFrom_writeAll_cons, isWritten]
    exact ih (step.fits fits) (fun w mem => inSchema w (List.mem_cons_of_mem _ mem))
      (fun w mem => normal w (List.mem_cons_of_mem _ mem))
      fun w mem => step.ids ▸ areRows w (List.mem_cons_of_mem _ mem)

/-- What was written is filled in. -/
theorem Sound.of_writeAll (h : view.Sound isOpen db.stores) (fits : view.Fits db)
    (inSchema : ∀ w ∈ writes, w.column ∈ view.schema.columns) (normal : ∀ w ∈ writes, w.Normal)
    (done : (view.writeAll writes).runFrom db = (.ok (), db')) :
    view.Sound (fun id name => isOpen id name ∧ ∀ w ∈ writes, ¬ (id = w.id ∧ name = w.column.name))
      db'.stores := by
  induction writes generalizing db isOpen with
  | nil =>
    cases done
    exact fun id row found => (h id row found).weaken fun _ _ _ _ o => ⟨o, nofun⟩
  | cons w writes ih =>
    have isFirst := inSchema w List.mem_cons_self
    rw [runFrom_writeAll_cons] at done
    cases isWritten : view.write db.stores (some w.id) w.column.name w.value with
    | error e =>
      rw [isWritten] at done
      cases done
    | ok stores =>
      rw [isWritten] at done
      have step : Rewrites view (fun _ _ _ => True) db { db with stores } :=
        .write fits (fits.regular _ isFirst).bare trivial isWritten
      have sound := ih (h.write fits isFirst (normal w List.mem_cons_self) isWritten) (step.fits fits)
        (fun w mem => inSchema w (List.mem_cons_of_mem _ mem))
        (fun w mem => normal w (List.mem_cons_of_mem _ mem)) done
      refine fun id row found => (sound id row found).weaken ?_
      rintro name slot _ _ ⟨⟨isOpen, notFirst⟩, others⟩
      refine ⟨isOpen, fun w' mem => ?_⟩
      rcases List.mem_cons.1 mem with rfl | mem
      · exact notFirst
      · exact others w' mem

end TableView

/-! ## Databases -/

namespace Database

/-- Every stored row is laid out by the schema of its table, with canonical bytes in its fields and NULL only
where it is allowed. -/
def Sound (db : Database) : Prop :=
  ∀ table view, db.view table none = .ok view → view.Sound (fun _ _ => False) db.stores

/-- A change of the rows of one table, after which these are sound. -/
theorem Sound.replace (h : db.Sound) (wf : db.WellFormed) (isView : db.view table none = .ok view)
    (tables : db'.tables = db.tables)
    (others : ∀ store, store ≠ view.store → db'.stores.rowsAt store = db.stores.rowsAt store)
    (own : view.Sound (fun _ _ => False) db'.stores) : db'.Sound := by
  intro other view' isView'
  rw [view_congr tables] at isView'
  by_cases same : view'.store = view.store
  · obtain ⟨t, isTable, rfl⟩ := view_eq_ok.1 isView
    obtain ⟨u, isTable', rfl⟩ := view_eq_ok.1 isView'
    cases wf.apart isTable' isTable same
    cases isTable.symm.trans isTable'
    exact own
  · intro id row found
    rw [TableView.rows, others _ same] at found
    exact h other view' isView' id row found

/-- In a new row all fields are still to be filled in. -/
theorem Sound.addBlank (h : db.Sound) (wf : db.WellFormed) (isView : db.view table none = .ok view) :
    view.Sound (fun id _ => id = view.nextId db) (db.addBlank view).stores := by
  intro id row found
  rw [Database.addBlank, rows_updateRows (wf.fits isView).inside] at found
  by_cases new : id = view.nextId db
  · subst new
    rw [TableView.nextId, RowStore.find?_allocate_self] at found
    cases found
    exact (Row.sound_blank view.schema).weaken fun _ _ _ _ _ => rfl
  · rw [RowStore.find?_allocate_of_ne _ new] at found
    exact (h table view isView id row found).weaken fun _ _ _ _ => False.elim

/-- A new row that is not refused is filled in, as there is a value for each field that may not be NULL. -/
theorem Sound.insertRow (h : db.Sound) (wf : db.WellFormed) (isView : db.view table none = .ok view)
    {fields : Option (List String)} {columns : List Column}
    (isTargets : view.schema.targets fields = .ok columns) {row : List Tree}
    (whole : row.length = columns.length) :
    ((view.insertRow table columns row).runFrom db).2.Sound := by
  refine Move.state_bind_result (P := Database.Sound) (Move.runFrom_get db) h fun _ eq => ?_
  cases eq
  refine Move.state_bind_result (P := Database.Sound)
    (Move.runFrom_mapM_lift (fun e : Column × Tree => db.accepted table e.1 e.2) _ _) h
    fun values areValues => ?_
  change Database.Sound ((view.setAll (view.nextId db) (columns.zip values)).runFrom (db.addBlank view)).2
  rw [TableView.setAll_eq]
  have isView₁ : (db.addBlank view).view table none = .ok view := isView
  have isRow : view.nextId db ∈ (view.rows (db.addBlank view).stores).ids := by
    rw [Database.addBlank, rows_updateRows (wf.fits isView).inside, RowStore.mem_ids_iff]
    exact ⟨_, RowStore.find?_allocate_self _⟩
  have isWrite : ∀ w ∈ (columns.zip values).map fun e => Write.mk (view.nextId db) e.1 e.2,
      w.column ∈ view.schema.columns ∧ w.Normal ∧ w.id ∈ (view.rows (db.addBlank view).stores).ids := by
    intro w mem
    obtain ⟨e, inZip, rfl⟩ := List.mem_map.1 mem
    obtain ⟨tree, accepted⟩ := Checked.of_mem_zip_mapM areValues e inZip
    exact ⟨Schema.targets_eq_ok isTargets _ (List.of_mem_zip inZip).1, normalize_of_accepted accepted, isRow⟩
  have fits := (wf.addBlank isView).fits isView₁
  have inSchema := fun w mem => (isWrite w mem).1
  have normal := fun w mem => (isWrite w mem).2.1
  obtain ⟨db', done⟩ := TableView.writeAll_of_normal fits inSchema normal fun w mem => (isWrite w mem).2.2
  have written : Rewrites view (fun _ _ _ => True) _ _ := .writeAll fits inSchema fun _ _ => trivial
  have filled := (h.addBlank wf isView).of_writeAll fits inSchema normal done
  rw [done] at written ⊢
  refine h.replace wf isView written.tables (fun store differ => ?_) fun id stored found => ?_
  · exact (written.others store differ).trans (rowsAt_updateRows_of_ne differ)
  · refine (filled id stored found).weaken ?_
    rintro name slot isSlot notNull ⟨isNew, notWritten⟩
    have isColumn := Schema.column_mem isSlot
    have isTarget := Schema.mem_targets isTargets isColumn notNull
    have sameLength := Checked.length_of_zip_mapM areValues whole
    obtain ⟨v, inZip⟩ := exists_mem_zip (Nat.le_of_eq sameLength) isTarget
    exact notWritten _ (List.mem_map_of_mem inZip) ⟨isNew, (Schema.name_of_slot? isSlot).symm⟩

end Database

/-! ## Statements -/

theorem Update.normal_of_mem_writes {s : Update} {writes : List Write}
    (isView : db.view s.table none = .ok view) (planned : s.writes db = .ok writes) :
    ∀ w ∈ writes, w.Normal := by
  intro w mem
  obtain ⟨a, earlier, isColumn, _, _, isNew⟩ := assignment_of_mem_writes isView planned mem
  obtain ⟨raw, _, _, isNormal, _⟩ := Assignment.newValue_eq_ok isNew
  exact ⟨raw, isColumn ▸ isNormal⟩

/-- Once the new values are computed, nothing stops an UPDATE from writing them. -/
theorem Update.writes_done {s : Update} {writes : List Write} (fits : view.Fits db)
    (isView : db.view s.table none = .ok view) (planned : s.writes db = .ok writes) :
    ∃ db', (view.writeAll writes).runFrom db = (.ok (), db') :=
  TableView.writeAll_of_normal fits (fun w mem => (mem_writes isView planned w mem).1)
    (normal_of_mem_writes isView planned) fun _ mem => row_of_mem_writes isView planned mem

theorem Update.sound (wf : db.WellFormed) (s : Update) (h : db.Sound) : (s.run.runFrom db).2.Sound := by
  rcases s.runFrom_run fun _ => wf.fits with ⟨e, -, failed⟩ | ⟨view, writes, isView, planned, same⟩
  · rw [failed]
    exact h
  · have fits := wf.fits isView
    have inSchema := fun w mem => (mem_writes isView planned w mem).1
    have normal := normal_of_mem_writes isView planned
    obtain ⟨db', done⟩ := writes_done fits isView planned
    have written : Rewrites view (fun _ _ _ => True) db _ := .writeAll fits inSchema fun _ _ => trivial
    have sound := (h s.table view isView).of_writeAll fits inSchema normal done
    rw [done] at written
    rw [same, done]
    refine h.replace wf isView written.tables written.others fun id row found => ?_
    exact (sound id row found).weaken fun _ _ _ _ isOpen => isOpen.1

namespace Database

theorem Sound.withTable (wf : db.WellFormed) (h : db.Sound) (schema : Schema)
    (new : List Reference) : (db.withTable table schema new).Sound := by
  intro other view isView id row found
  obtain ⟨t, isTable, rfl⟩ := view_eq_ok.1 isView
  change (db.stores.extend.1.rowsAt t.store).find? id = some row at found
  rcases find?_withTable isTable with ⟨_, rfl⟩ | old
  · rw [Stores.rowsAt_extend_new] at found
    cases found
  · rw [Stores.rowsAt_extend_of_lt (wf.inside old)] at found
    exact h other _ (view_eq_ok.2 ⟨t, old, rfl⟩) id row found

theorem Sound.withoutTable (h : db.Sound) : (db.withoutTable table).Sound := by
  intro other view isView id row found
  obtain ⟨t, isTable, rfl⟩ := view_eq_ok.1 isView
  exact h other _ (view_eq_ok.2 ⟨t, (find?_withoutTable isTable).2, rfl⟩) id row found

theorem Sound.removeRow (wf : db.WellFormed) (isView : db.view table none = .ok view) {row : RowId}
    (h : db.Sound) : (db.removeRow view row).Sound := by
  refine h.replace wf isView rfl (fun store differ => rowsAt_updateRows_of_ne differ) fun id stored found => ?_
  rw [Database.removeRow, rows_updateRows (wf.fits isView).inside] at found
  exact h table view isView id stored (find?_of_erase found).2

theorem invariant_sound : Invariant Sound where
  create wf _ _ h := h.withTable wf _ _
  drop h := h.withoutTable
  insert wf isView isTargets whole h := h.insertRow wf isView isTargets whole
  remove wf isView h := h.removeRow wf isView
  update wf h := Update.sound wf _ h

theorem Reached.sound (h : db.Reached fun _ s => s.Regular) : db.Sound := invariant_sound.reached nofun h

end Database

end RelEngine
