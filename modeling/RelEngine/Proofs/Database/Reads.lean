import RelEngine.Proofs.Name
import RelEngine.Proofs.Row.Fields
import RelEngine.Proofs.RowStore
import RelEngine.Proofs.Value.Equality
import RelEngine.Statement.Constraints

/-!
What can be read from the tables of a database, and when a reference is satisfied.
-/
namespace RelEngine

/-- The name is not taken for a qualified one. -/
def FieldName.Bare (name : String) : Prop := parse name = ⟨none, name⟩

instance (name : String) : Decidable (FieldName.Bare name) := inferInstanceAs (Decidable (_ = _))

/-- The size of the column is that of its type, as `Column.plain` and all that is built from it have it
(a field of any other size can be neither written nor read), and its name is not taken for a qualified
one. -/
structure Column.Regular (c : Column) : Prop where
  sized : c.Sized
  bare : FieldName.Bare c.name

instance (c : Column) : Decidable c.Regular :=
  decidable_of_iff (c.Sized ∧ FieldName.Bare c.name) ⟨fun h => ⟨h.1, h.2⟩, fun h => ⟨h.sized, h.bare⟩⟩

namespace TableView

variable {t : TableView} {stores : Stores} {id : RowId} {field : String} {value : Value}

theorem local?_of_bare (bare : FieldName.Bare field) :
    t.local? field = if t.schema.has field then some field else none := by
  rw [local?, bare]

theorem resolve_of_bare (bare : FieldName.Bare field) (has : t.schema.has field = true) :
    t.resolve field = .ok field := by
  rw [resolve, local?_of_bare bare, if_pos has]

/-- Nothing is read of a row but its bytes. -/
theorem read_congr {stores' : Stores} (same : (t.rows stores').find? id = (t.rows stores).find? id) :
    t.read stores' (some id) = t.read stores (some id) := by
  funext name
  rw [read, read, Option.bind_some, Option.bind_some, same]

/-- A field under its bare name is the one of the packed row. -/
theorem read_eq_get (bare : FieldName.Bare field) {row : Bytes}
    (found : (t.rows stores).find? id = some row) :
    t.read stores (some id) field = Row.get t.schema row field := by
  rw [read, resolve, local?_of_bare bare]
  cases has : t.schema.has field with
  | true => simp only [if_true, Checked.ok_bind, Option.bind_some, found]
  | false =>
    rw [← Schema.slot?_isSome, Option.isSome_eq_false_iff, Option.isNone_iff_eq_none] at has
    rw [Row.get, Schema.slot, has]
    rfl

theorem holds_eq_true (h : t.holds stores field value = .ok true) :
    ∃ id ∈ (t.rows stores).ids, ∃ w, t.read stores (some id) field = .ok w ∧
      Value.Equals value w := by
  obtain ⟨id, mem, h⟩ := Checked.anyM_eq_true h
  obtain ⟨w, isRead, h⟩ := Checked.bind_eq_ok.1 h
  obtain ⟨result, isResult, eq⟩ := Checked.bind_eq_ok.1 h
  exact ⟨id, mem, w, isRead, (Value.isTrue_relate isResult).1 (Except.ok.inj eq)⟩

theorem holds_eq_false (h : t.holds stores field value = .ok false) :
    ∀ id ∈ (t.rows stores).ids, ∀ w, t.read stores (some id) field = .ok w →
      ¬ Value.Equals value w := by
  intro id mem w isRead equals
  obtain ⟨v, isRead', h⟩ := Checked.bind_eq_ok.1 (Checked.anyM_eq_false h id mem)
  obtain ⟨result, isResult, eq⟩ := Checked.bind_eq_ok.1 h
  rw [isRead] at isRead'
  cases isRead'
  have isTrue := (Value.isTrue_relate isResult).2 equals
  rw [Except.ok.inj eq] at isTrue
  exact nomatch isTrue

end TableView

namespace Reference

variable {r : Reference} {table field : String}

theorem hasChild_iff : r.hasChild table field = true ↔ r.childTable = table ∧ r.childField = field := by
  rw [hasChild, Bool.and_eq_true, beq_iff_eq, beq_iff_eq]

theorem hasParent_iff : r.hasParent table field = true ↔ r.parentTable = table ∧ r.parentField = field := by
  rw [hasParent, Bool.and_eq_true, beq_iff_eq, beq_iff_eq]

theorem hasChild_self (h : r.childTable = table) : r.hasChild table r.childField = true :=
  hasChild_iff.2 ⟨h, rfl⟩

theorem hasParent_self (h : r.parentTable = table) : r.hasParent table r.parentField = true :=
  hasParent_iff.2 ⟨h, rfl⟩

end Reference

namespace Database

/-- Under the id the table has a row with this value in the field. -/
def Reads (db : Database) (table : String) (id : RowId) (field : String) (v : Value) : Prop :=
  ∃ view, db.view table none = .ok view ∧ id ∈ (view.rows db.stores).ids ∧
    view.read db.stores (some id) field = .ok v

/-- Every value of the child field that is not NULL equals a value of the parent field. -/
def Satisfied (db : Database) (r : Reference) : Prop :=
  ∀ id v, db.Reads r.childTable id r.childField v → v ≠ none →
    ∃ parent w, db.Reads r.parentTable parent r.parentField w ∧ Value.Equals v w

/-- What holds between the parts of a database, whatever statements led to it. -/
structure WellFormed (db : Database) : Prop where
  inside : ∀ {name t}, db.tables.find? name = some t → t.store < db.stores.length
  apart : ∀ {a b t u}, db.tables.find? a = some t → db.tables.find? b = some u →
    t.store = u.store → a = b
  regular : ∀ {name t}, db.tables.find? name = some t → ∀ c ∈ t.schema.columns, c.Regular
  whole : ∀ {name t id row}, db.tables.find? name = some t →
    (db.stores.rowsAt t.store).find? id = some row → row.length = t.schema.rowSize
  references : ∀ r ∈ db.references, FieldName.Bare r.childField ∧ FieldName.Bare r.parentField

variable {db db' : Database} {table field : String} {id : RowId} {v : Value}

/-! ## Reading -/

theorem table_eq_ok {t : Table} : db.table table = .ok t ↔ db.tables.find? table = some t := by
  rw [Database.table]
  cases db.tables.find? table with
  | none => exact ⟨nofun, nofun⟩
  | some u =>
    exact ⟨fun h => congrArg some (Except.ok.inj h), fun h => congrArg Except.ok (Option.some.inj h)⟩

theorem schema_eq_ok {t : Table} (isTable : db.tables.find? table = some t) : db.schema table = .ok t.schema := by
  rw [Database.schema, table_eq_ok.2 isTable]
  rfl

theorem rows_eq_ok {t : Table} (isTable : db.tables.find? table = some t) :
    db.rows table = .ok (db.stores.rowsAt t.store) := by
  rw [Database.rows, table_eq_ok.2 isTable]
  rfl

theorem view_eq_ok {view : TableView} {alias? : Option String} :
    db.view table alias? = .ok view ↔ ∃ t, db.tables.find? table = some t ∧
      view = ⟨alias?.getD table, t.schema, t.store⟩ := by
  rw [Database.view, Checked.bind_eq_ok]
  exact exists_congr fun t => by rw [table_eq_ok, Checked.pure_eq_ok, eq_comm (b := view)]

theorem schema_of_view {schema : Schema} {alias? : Option String} {view : TableView}
    (isSchema : db.schema table = .ok schema) (isView : db.view table alias? = .ok view) :
    view.schema = schema := by
  obtain ⟨t, isTable, eq⟩ := Checked.bind_eq_ok.1 isSchema
  obtain ⟨u, isTable', rfl⟩ := view_eq_ok.1 isView
  cases (table_eq_ok.1 isTable).symm.trans isTable'
  exact Except.ok.inj eq

theorem view_congr (same : db'.tables = db.tables) {alias? : Option String} :
    db'.view table alias? = db.view table alias? := by
  rw [Database.view, Database.view, Database.table, Database.table, same]

theorem reads_iff (bare : FieldName.Bare field) :
    db.Reads table id field v ↔ ∃ t row, db.tables.find? table = some t ∧
      (db.stores.rowsAt t.store).find? id = some row ∧ Row.get t.schema row field = .ok v := by
  constructor
  · rintro ⟨view, isView, mem, isRead⟩
    obtain ⟨t, isTable, rfl⟩ := view_eq_ok.1 isView
    obtain ⟨row, found⟩ := RowStore.mem_ids_iff.1 mem
    rw [TableView.read_eq_get bare found] at isRead
    exact ⟨t, row, isTable, found, isRead⟩
  · rintro ⟨t, row, isTable, found, isRead⟩
    refine ⟨_, view_eq_ok.2 ⟨t, isTable, rfl⟩, RowStore.mem_ids_iff.2 ⟨row, found⟩, ?_⟩
    exact (TableView.read_eq_get (t := ⟨table, t.schema, t.store⟩) bare found).trans isRead

/-- A table with the same rows has the same values. -/
theorem reads_congr (sameTable : db'.tables.find? table = db.tables.find? table)
    (sameRows : ∀ t, db.tables.find? table = some t →
      db'.stores.rowsAt t.store = db.stores.rowsAt t.store) :
    db'.Reads table id field v ↔ db.Reads table id field v := by
  have views : ∀ view, db'.view table none = .ok view ↔ db.view table none = .ok view := fun view => by
    rw [view_eq_ok, view_eq_ok, sameTable]
  refine exists_congr fun view => ?_
  rw [views]
  refine and_congr_right fun isView => ?_
  obtain ⟨t, isTable, rfl⟩ := view_eq_ok.1 isView
  rw [TableView.read, TableView.read, TableView.rows, TableView.rows, sameRows t isTable]

/-- A reference whose tables have the same rows as before is satisfied as before. -/
theorem satisfied_congr {r : Reference}
    (child : ∀ id v, db'.Reads r.childTable id r.childField v ↔ db.Reads r.childTable id r.childField v)
    (parent : ∀ id v,
      db'.Reads r.parentTable id r.parentField v ↔ db.Reads r.parentTable id r.parentField v) :
    db'.Satisfied r ↔ db.Satisfied r := by
  simp only [Satisfied, child, parent]

theorem Reads.unique {w : Value} (h : db.Reads table id field v) (h' : db.Reads table id field w) :
    v = w := by
  obtain ⟨view, isView, _, isRead⟩ := h
  obtain ⟨view', isView', _, isRead'⟩ := h'
  cases isView.symm.trans isView'
  exact Except.ok.inj (isRead.symm.trans isRead')

/-- The values of a field in all rows of a table. -/
def values (db : Database) (table field : String) : List Value :=
  match db.view table none with
  | .ok view => (view.rows db.stores).ids.filterMap fun id =>
    (view.read db.stores (some id) field).toOption
  | .error _ => []

theorem mem_values : v ∈ db.values table field ↔ ∃ id, db.Reads table id field v := by
  rw [values]
  cases isView : db.view table none with
  | error e =>
    refine ⟨nofun, fun ⟨id, view, isView', _⟩ => ?_⟩
    exact nomatch isView.symm.trans isView'
  | ok view =>
    rw [List.mem_filterMap]
    refine exists_congr fun id => ⟨fun h => ?_, ?_⟩
    · exact ⟨view, isView, h.1, Checked.toOption_eq_some.1 h.2⟩
    · rintro ⟨view', isView', mem, isRead⟩
      cases isView.symm.trans isView'
      exact ⟨mem, Checked.toOption_eq_some.2 isRead⟩

theorem satisfied_iff {r : Reference} :
    db.Satisfied r ↔ ∀ v ∈ db.values r.childTable r.childField, v ≠ none →
      ∃ w ∈ db.values r.parentTable r.parentField, Value.Equals v w := by
  simp only [Satisfied, mem_values]
  constructor
  · rintro h v ⟨id, isChild⟩ notNull
    obtain ⟨parent, w, isParent, equals⟩ := h id v isChild notNull
    exact ⟨w, ⟨parent, isParent⟩, equals⟩
  · intro h id v isChild notNull
    obtain ⟨w, ⟨parent, isParent⟩, equals⟩ := h v ⟨id, isChild⟩ notNull
    exact ⟨parent, w, isParent, equals⟩

instance (db : Database) (r : Reference) : Decidable (db.Satisfied r) :=
  decidable_of_iff _ satisfied_iff.symm

/-! ## Checks -/

theorem holds_eq_true (h : db.holds table field v = .ok true) :
    ∃ id w, db.Reads table id field w ∧ Value.Equals v w := by
  obtain ⟨view, isView, h⟩ := Checked.bind_eq_ok.1 h
  obtain ⟨id, mem, w, isRead, equals⟩ := TableView.holds_eq_true h
  exact ⟨id, w, ⟨view, isView, mem, isRead⟩, equals⟩

theorem holds_eq_false (h : db.holds table field v = .ok false) {w : Value}
    (reads : db.Reads table id field w) : ¬ Value.Equals v w := by
  obtain ⟨view, isView, h⟩ := Checked.bind_eq_ok.1 h
  obtain ⟨view', isView', mem, isRead⟩ := reads
  rw [isView] at isView'
  cases isView'
  exact TableView.holds_eq_false h id mem w isRead

theorem checkUnique_eq_ok {c : Column} (h : db.checkUnique table c v = .ok ())
    (unique : c.unique = true) {w : Value} (reads : db.Reads table id c.name w) :
    ¬ Value.Equals v w := by
  intro equals
  have present : (c.unique && !v.isNull) = true := by
    rw [unique]
    cases v with
    | none => exact absurd rfl equals.ne_none.1
    | some _ => rfl
  rw [checkUnique, if_pos present] at h
  obtain ⟨found, isFound, h⟩ := Checked.bind_eq_ok.1 h
  cases found with
  | true => exact nomatch h
  | false => exact holds_eq_false isFound reads equals

theorem checkParents_eq_ok (h : db.checkParents table field v = .ok ()) (notNull : v ≠ none)
    {r : Reference} (mem : r ∈ db.references) (isChild : r.hasChild table field = true) :
    ∃ id w, db.Reads r.parentTable id r.parentField w ∧ Value.Equals v w := by
  have present : (!v.isNull) = true := by
    cases v with
    | none => exact absurd rfl notNull
    | some _ => rfl
  rw [checkParents, if_pos present] at h
  have checked := Checked.forM_eq_ok h r (List.mem_filter.2 ⟨mem, isChild⟩)
  obtain ⟨found, isFound, h⟩ := Checked.bind_eq_ok.1 checked
  cases found with
  | true => exact holds_eq_true isFound
  | false => exact nomatch h

theorem checkChildren_eq_ok {r : Reference} {change : RowChange}
    (h : db.checkChildren r v change = .ok ()) (notNull : v ≠ none)
    (blocks : r.onChange change = .noAction) {w : Value}
    (reads : db.Reads r.childTable id r.childField w) : ¬ Value.Equals v w := by
  have present : (!v.isNull && r.blocks change) = true := by
    rw [Reference.blocks, blocks]
    cases v with
    | none => exact absurd rfl notNull
    | some _ => rfl
  rw [checkChildren, if_pos present] at h
  obtain ⟨found, isFound, h⟩ := Checked.bind_eq_ok.1 h
  cases found with
  | true => exact nomatch h
  | false => exact holds_eq_false isFound reads

end Database

end RelEngine
