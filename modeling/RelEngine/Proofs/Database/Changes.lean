import RelEngine.Proofs.Database.Reads

/-!
Changes of the rows of one table, and what a change of a database keeps.
-/
namespace RelEngine

/-- The rows of the view have the layout of its schema. -/
structure TableView.Fits (view : TableView) (db : Database) : Prop where
  inside : view.store < db.stores.length
  regular : ∀ c ∈ view.schema.columns, c.Regular
  whole : ∀ id row, (view.rows db.stores).find? id = some row → row.length = view.schema.rowSize

namespace Database

/-- A change after which the references of this kind are satisfied that were so before, or that were
not there. -/
structure Preserves (kind : Reference → Prop) (db db' : Database) : Prop where
  wellFormed : db'.WellFormed
  satisfied : ∀ r ∈ db'.references, kind r → (r ∈ db.references → db.Satisfied r) → db'.Satisfied r

theorem Preserves.refl {kind : Reference → Prop} {db : Database} (wf : db.WellFormed) :
    Preserves kind db db :=
  ⟨wf, fun _ mem _ before => before mem⟩

/-- A change of rows after which the references of this kind are satisfied that were so before. -/
structure Keeps (kind : Reference → Prop) (db db' : Database) : Prop where
  wellFormed : db'.WellFormed
  tables : db'.tables = db.tables
  references : db'.references = db.references
  satisfied : ∀ r ∈ db.references, kind r → db.Satisfied r → db'.Satisfied r

theorem Keeps.refl {kind : Reference → Prop} {db : Database} (wf : db.WellFormed) :
    Keeps kind db db :=
  ⟨wf, rfl, rfl, fun _ _ _ h => h⟩

theorem Keeps.trans {kind : Reference → Prop} {db db' db'' : Database} (h : Keeps kind db db')
    (h' : Keeps kind db' db'') : Keeps kind db db'' where
  wellFormed := h'.wellFormed
  tables := h'.tables.trans h.tables
  references := h'.references.trans h.references
  satisfied r mem isKind before :=
    h'.satisfied r (h.references.symm ▸ mem) isKind (h.satisfied r mem isKind before)

theorem Keeps.preserves {kind : Reference → Prop} {db db' : Database} (h : Keeps kind db db') :
    Preserves kind db db' where
  wellFormed := h.wellFormed
  satisfied r mem isKind before :=
    h.satisfied r (h.references ▸ mem) isKind (before (h.references ▸ mem))

/-! ## The rows of one table -/

/-- The database with other rows in the table of the view. -/
def updateRows (db : Database) (view : TableView) (f : RowStore → RowStore) : Database :=
  { db with stores := db.stores.update view.store f }

variable {db : Database} {view : TableView} {f : RowStore → RowStore} {table other field : String}
  {id : RowId} {v : Value}

theorem WellFormed.fits {alias? : Option String} (wf : db.WellFormed)
    (isView : db.view table alias? = .ok view) : view.Fits db := by
  obtain ⟨t, isTable, rfl⟩ := view_eq_ok.1 isView
  exact ⟨wf.inside isTable, wf.regular isTable, fun id row found => wf.whole isTable found⟩

theorem reads_view (isView : db.view table none = .ok view) (bare : FieldName.Bare field) :
    db.Reads table id field v ↔ ∃ row, (view.rows db.stores).find? id = some row ∧
      Row.get view.schema row field = .ok v := by
  rw [reads_iff bare]
  obtain ⟨t, isTable, rfl⟩ := view_eq_ok.1 isView
  constructor
  · rintro ⟨u, row, isTable', found, isRead⟩
    cases isTable.symm.trans isTable'
    exact ⟨row, found, isRead⟩
  · rintro ⟨row, found, isRead⟩
    exact ⟨t, row, isTable, found, isRead⟩

theorem length_updateRows : (db.updateRows view f).stores.length = db.stores.length := Stores.length_update f

theorem rows_updateRows (inside : view.store < db.stores.length) :
    view.rows (db.updateRows view f).stores = f (view.rows db.stores) :=
  Stores.rowsAt_update_self f inside

theorem rowsAt_updateRows_of_ne {store : StoreId} (differ : store ≠ view.store) :
    (db.updateRows view f).stores.rowsAt store = db.stores.rowsAt store :=
  Stores.rowsAt_update_of_ne f differ

/-- The table itself reads its new rows. -/
theorem reads_updateRows (wf : db.WellFormed) (isView : db.view table none = .ok view)
    (bare : FieldName.Bare field) :
    (db.updateRows view f).Reads table id field v ↔
      ∃ row, (f (view.rows db.stores)).find? id = some row ∧
        Row.get view.schema row field = .ok v := by
  have isView' : (db.updateRows view f).view table none = .ok view := isView
  rw [reads_view isView' bare, rows_updateRows (wf.fits isView).inside]

theorem reads_updateRows_of_ne (wf : db.WellFormed) (isView : db.view table none = .ok view)
    (differ : other ≠ table) :
    (db.updateRows view f).Reads other id field v ↔ db.Reads other id field v := by
  refine reads_congr rfl fun t isTable => rowsAt_updateRows_of_ne fun same => ?_
  obtain ⟨u, isOwn, rfl⟩ := view_eq_ok.1 isView
  exact differ (wf.apart isTable isOwn same)

theorem WellFormed.updateRows (wf : db.WellFormed) (isView : db.view table none = .ok view)
    (whole : ∀ id row, (f (view.rows db.stores)).find? id = some row →
      row.length = view.schema.rowSize) : (db.updateRows view f).WellFormed where
  inside found := by
    change _ < (Stores.update db.stores _ _).length
    rw [Stores.length_update]
    exact wf.inside found
  apart := wf.apart
  regular := wf.regular
  whole {name t id row} found isRow := by
    obtain ⟨u, isOwn, rfl⟩ := view_eq_ok.1 isView
    by_cases same : t.store = u.store
    · cases wf.apart found isOwn same
      cases isOwn.symm.trans (show db.tables.find? table = some t from found)
      change ((Stores.update db.stores t.store f).rowsAt t.store).find? id = some row at isRow
      rw [Stores.rowsAt_update_self f (wf.inside isOwn)] at isRow
      exact whole id row isRow
    · rw [rowsAt_updateRows_of_ne same] at isRow
      exact wf.whole found isRow
  references := wf.references

end Database

end RelEngine
