import RelEngine.Proofs.Statement.Steps
import RelEngine.Proofs.Tree.Faults
import RelEngine.Proofs.Value.Kinds

/-!
The checks of references come to an answer. As every reference connects columns of one kind that are there,
looking for a value on its other side finds a table and compares values that can be compared.
-/
namespace RelEngine

/-! ## Results up to violated references -/

namespace Checked

variable {α β : Type}

/-- The result is `c₀`, unless a reference was found violated before. -/
inductive UnlessViolated (c₀ : Checked α) : Checked α → Prop where
  | same : UnlessViolated c₀ c₀
  | violated (table field : String) : UnlessViolated c₀ (.error (.foreignKeyViolation table field))

theorem UnlessViolated.bind {x₀ x : Checked α} {f₀ f : α → Checked β} (h : UnlessViolated x₀ x)
    (rest : ∀ a, x₀ = .ok a → UnlessViolated (f₀ a) (f a)) : UnlessViolated (x₀ >>= f₀) (x >>= f) := by
  cases h with
  | violated table field => exact .violated table field
  | same =>
    cases x₀ with
    | error e => exact .same
    | ok a => exact rest a rfl

theorem UnlessViolated.bind_same {x : Checked α} {f₀ f : α → Checked β}
    (rest : ∀ a, x = .ok a → UnlessViolated (f₀ a) (f a)) : UnlessViolated (x >>= f₀) (x >>= f) :=
  bind .same rest

theorem UnlessViolated.mapM {l : List α} {f₀ f : α → Checked β}
    (h : ∀ a ∈ l, UnlessViolated (f₀ a) (f a)) : UnlessViolated (l.mapM f₀) (l.mapM f) := by
  induction l with
  | nil => exact .same
  | cons a l ih =>
    rw [List.mapM_cons, List.mapM_cons]
    refine (h a List.mem_cons_self).bind fun b _ => ?_
    exact (ih fun a mem => h a (List.mem_cons_of_mem _ mem)).bind fun bs _ => .same

theorem UnlessViolated.foldlM {l : List α} {f₀ f : β → α → Checked β}
    (h : ∀ b, ∀ a ∈ l, UnlessViolated (f₀ b a) (f b a)) (b : β) :
    UnlessViolated (l.foldlM f₀ b) (l.foldlM f b) := by
  induction l generalizing b with
  | nil => exact .same
  | cons a l ih =>
    rw [List.foldlM_cons, List.foldlM_cons]
    refine (h b a List.mem_cons_self).bind fun b' _ => ?_
    exact ih (fun b a mem => h b a (List.mem_cons_of_mem _ mem)) b'

/-- Checks one after the other. -/
theorem UnlessViolated.forM {l : List α} {f : α → Checked Unit}
    (h : ∀ a ∈ l, UnlessViolated (.ok ()) (f a)) : UnlessViolated (.ok ()) (l.forM f) := by
  induction l with
  | nil => exact .same
  | cons a l ih =>
    rw [List.forM]
    exact (h a List.mem_cons_self).bind fun _ _ => ih fun a mem => h a (List.mem_cons_of_mem _ mem)

end Checked

open Checked (UnlessViolated)

variable {db : Database} {table : String} {view : TableView} {c d : Column} {v : Value}

/-! ## Looking for values -/

namespace TableView

/-- A column of the view can be read in every row, and also where there is none. -/
theorem read_of_column (isColumn : c ∈ view.schema.columns) (bare : FieldName.Bare c.name) (stores : Stores)
    (id : Option RowId) : ∃ v, view.read stores id c.name = .ok v ∧ c.Holds v := by
  have has : view.schema.has c.name = true := Schema.has_iff.2 (List.mem_map_of_mem isColumn)
  rw [read, resolve_of_bare bare has, Checked.ok_bind]
  split
  · next row _ =>
    obtain ⟨slot, isSlot, rfl⟩ := Schema.slot?_of_mem isColumn
    exact ⟨_, Row.read_eq isSlot, Row.holds_read row slot⟩
  · refine ⟨none, rfl, ?_⟩
    rintro _ ⟨⟩

theorem read_eq_error {stores : Stores} {id : Option RowId} {field : String} {x : Error}
    (bad : view.read stores id field = .error x) : ∃ name, x = .fieldNotFound name := by
  rcases Checked.bind_eq_error.1 bad with bad | ⟨column, _, bad⟩
  · rw [resolve] at bad
    split at bad
    · cases bad
    · cases bad
      exact ⟨_, rfl⟩
  · split at bad
    · rcases Checked.bind_eq_error.1 bad with bad | ⟨_, _, eq⟩
      · rw [Schema.slot] at bad
        split at bad
        · cases bad
        · cases bad
          exact ⟨_, rfl⟩
      · cases eq
    · cases bad

theorem holds_eq_error {stores : Stores} {field : String} {x : Error}
    (bad : view.holds stores field v = .error x) : (∃ name, x = .fieldNotFound name) ∨ x.OfOperands := by
  obtain ⟨id, _, bad⟩ := Checked.anyM_eq_error bad
  rcases Checked.bind_eq_error.1 bad with bad | ⟨w, _, bad⟩
  · exact .inl (read_eq_error bad)
  · rcases Checked.bind_eq_error.1 bad with bad | ⟨_, _, eq⟩
    · exact .inr (Value.relate_eq_error bad)
    · cases eq

/-- A value is looked for among values that it can be compared with. -/
theorem holds_of_kind (isColumn : d ∈ view.schema.columns) (bare : FieldName.Bare d.name)
    (same : c.type.isNumeric = d.type.isNumeric) (isHeld : c.Holds v) (stores : Stores) :
    ∃ found, view.holds stores d.name v = .ok found := by
  apply Checked.anyM_of_forall
  intro id _
  obtain ⟨w, isRead, isHeld'⟩ := read_of_column isColumn bare stores (some id)
  obtain ⟨result, isResult⟩ := Column.relate_of_holds same isHeld isHeld' .eq
  exact ⟨result.isTrue, by rw [isRead, Checked.ok_bind, isResult]; rfl⟩

end TableView

namespace Database

/-! ## Checks -/

/-- References connect columns of one kind, and no column has a name that is taken for a qualified one. -/
structure Closed (db : Database) : Prop where
  links : ∀ r ∈ db.references, db.Links r
  bare : ∀ {name t}, db.tables.find? name = some t → ∀ c ∈ t.schema.columns, FieldName.Bare c.name

theorem Reached.closed (reached : db.Reached fun _ s => s.Declares fun c => FieldName.Bare c.name) :
    db.Closed :=
  ⟨reached.links, reached.columns⟩

theorem Reached.closed_of_regular (reached : db.Reached fun _ s => s.Declares Column.Regular) : db.Closed :=
  ⟨reached.links, fun isTable c mem => (reached.columns isTable c mem).bare⟩

/-- Whatever is in the rows. -/
theorem Closed.withStores (closed : db.Closed) (stores : Stores) : { db with stores }.Closed :=
  ⟨closed.links, closed.bare⟩

theorem Closed.holds_of_read (closed : db.Closed) (isView : db.view table none = .ok view)
    (isColumn : c ∈ view.schema.columns) {id : Option RowId} (isRead : view.read db.stores id c.name = .ok v) :
    c.Holds v := by
  obtain ⟨t, isTable, rfl⟩ := view_eq_ok.1 isView
  obtain ⟨w, isRead', isHeld⟩ :=
    TableView.read_of_column isColumn (closed.bare isTable c isColumn) db.stores id
  cases isRead.symm.trans isRead'
  exact isHeld

/-! ### Tables -/

/-- No check of a reference misses a table. -/
structure FindsTables (db : Database) : Prop where
  parents : ∀ table field v name, db.checkParents table field v ≠ .error (.unknownTable name)
  children : ∀ r ∈ db.references, ∀ v change name, db.checkChildren r v change ≠ .error (.unknownTable name)
  removal : ∀ (view : TableView) table id name,
    db.checkRemoval view (db.references.filter (·.parentTable == table)) id ≠ .error (.unknownTable name)

theorem holds_ne_unknownTable {t : Table} (isTable : db.tables.find? table = some t) (field : String)
    (v : Value) (name : String) : db.holds table field v ≠ .error (.unknownTable name) := by
  intro bad
  have isView : db.view table none = .ok ⟨table, t.schema, t.store⟩ := view_eq_ok.2 ⟨t, isTable, rfl⟩
  rw [holds, isView, Checked.ok_bind] at bad
  rcases TableView.holds_eq_error bad with ⟨_, eq⟩ | operands
  · cases eq
  · cases operands

theorem checkChildren_ne_unknownTable {r : Reference} {t : Table}
    (isTable : db.tables.find? r.childTable = some t) (v : Value) (change : RowChange) (name : String) :
    db.checkChildren r v change ≠ .error (.unknownTable name) := by
  intro bad
  rw [checkChildren] at bad
  split at bad
  · rcases Checked.bind_eq_error.1 bad with bad | ⟨found, _, bad⟩
    · exact holds_ne_unknownTable isTable _ v name bad
    · cases found with
      | true => cases bad
      | false => cases bad
  · cases bad

theorem findsTables (links : ∀ r ∈ db.references, db.Links r) : db.FindsTables := by
  refine ⟨fun table field v name bad => ?_, fun r mem v change name => ?_, fun view table id name bad => ?_⟩
  · rw [checkParents] at bad
    split at bad
    · obtain ⟨r, mem, bad⟩ := Checked.forM_eq_error bad
      obtain ⟨_, u, _, isTable, _⟩ := links r (List.mem_filter.1 mem).1
      rcases Checked.bind_eq_error.1 bad with bad | ⟨found, _, bad⟩
      · exact holds_ne_unknownTable isTable _ v name bad
      · cases found with
        | true => cases bad
        | false => cases bad
    · cases bad
  · obtain ⟨_, _, isTable, _⟩ := links r mem
    exact checkChildren_ne_unknownTable isTable v change name
  · obtain ⟨r, mem, bad⟩ := Checked.forM_eq_error bad
    obtain ⟨_, _, isTable, _⟩ := links r (List.mem_filter.1 mem).1
    rcases Checked.bind_eq_error.1 bad with bad | ⟨v, _, bad⟩
    · obtain ⟨_, eq⟩ := TableView.read_eq_error bad
      cases eq
    · exact checkChildren_ne_unknownTable isTable v .delete name bad

/-! ### Kinds -/

/-- If two columns are of one kind, one is there to be searched for the values of the other. -/
theorem Closed.holds_of_kind (closed : db.Closed) (isView : db.view table none = .ok view)
    (isColumn : c ∈ view.schema.columns) (isHeld : c.Holds v) {name : String} {t u : Table} {own : Column}
    (isOwnTable : db.tables.find? table = some t) (isOwn : own ∈ t.schema.columns)
    (sameName : own.name = c.name) (isTable : db.tables.find? name = some u) (isOther : d ∈ u.schema.columns)
    (sameKind : own.type.isNumeric = d.type.isNumeric) : ∃ found, db.holds name d.name v = .ok found := by
  obtain ⟨t', isOwnTable', rfl⟩ := view_eq_ok.1 isView
  cases isOwnTable.symm.trans isOwnTable'
  cases List.inj_on_of_nodup_map t.schema.nodup isOwn isColumn sameName
  have isView' : db.view name none = .ok ⟨name, u.schema, u.store⟩ := view_eq_ok.2 ⟨u, isTable, rfl⟩
  have isOther' : d ∈ (TableView.mk name u.schema u.store).schema.columns := isOther
  rw [holds, isView', Checked.ok_bind]
  exact TableView.holds_of_kind isOther' (closed.bare isTable d isOther) sameKind isHeld db.stores

section

variable {r : Reference}

theorem Closed.holds_parent (closed : db.Closed) (isView : db.view table none = .ok view)
    (isColumn : c ∈ view.schema.columns) (isHeld : c.Holds v) (mem : r ∈ db.references)
    (isChild : r.hasChild table c.name = true) :
    ∃ found, db.holds r.parentTable r.parentField v = .ok found := by
  obtain ⟨t, u, isTable, isTable', child, childMem, childName, parent, parentMem, parentName, same⟩ :=
    closed.links r mem
  obtain ⟨rfl, isField⟩ := Reference.hasChild_iff.1 isChild
  rw [← parentName]
  exact closed.holds_of_kind isView isColumn isHeld isTable childMem (childName.trans isField) isTable'
    parentMem same

theorem Closed.holds_child (closed : db.Closed) (isView : db.view table none = .ok view)
    (isColumn : c ∈ view.schema.columns) (isHeld : c.Holds v) (mem : r ∈ db.references)
    (isParent : r.hasParent table c.name = true) :
    ∃ found, db.holds r.childTable r.childField v = .ok found := by
  obtain ⟨t, u, isTable, isTable', child, childMem, childName, parent, parentMem, parentName, same⟩ :=
    closed.links r mem
  obtain ⟨rfl, isField⟩ := Reference.hasParent_iff.1 isParent
  rw [← childName]
  exact closed.holds_of_kind isView isColumn isHeld isTable' parentMem (parentName.trans isField) isTable
    childMem same.symm

end

/-- A parent value can be read in every row. -/
theorem Closed.read_parent (closed : db.Closed) (isView : db.view table none = .ok view) {r : Reference}
    (mem : r ∈ db.references) (isOwn : r.parentTable = table) (id : Option RowId) :
    ∃ c ∈ view.schema.columns, c.name = r.parentField ∧
      ∃ v, view.read db.stores id r.parentField = .ok v ∧ c.Holds v := by
  obtain ⟨t, u, -, isTable, -, -, -, parent, parentMem, parentName, -⟩ := closed.links r mem
  obtain ⟨u', isTable', rfl⟩ := view_eq_ok.1 isView
  rw [isOwn, isTable'] at isTable
  cases isTable
  have bare := closed.bare isTable' parent parentMem
  have isColumn : parent ∈ (TableView.mk table u.schema u.store).schema.columns := parentMem
  obtain ⟨v, isRead, isHeld⟩ := TableView.read_of_column isColumn bare db.stores id
  exact ⟨parent, parentMem, parentName, v, parentName ▸ isRead, isHeld⟩

/-- The checks of references have no outcome but that they pass or find a reference violated. They are made for
values that a column takes or holds, and for rows that are to be removed. -/
structure Decides (db : Database) : Prop where
  parents : ∀ {table view}, db.view table none = .ok view → ∀ c ∈ view.schema.columns, ∀ v, c.Holds v →
    UnlessViolated (.ok ()) (db.checkParents table c.name v)
  children : ∀ {table view}, db.view table none = .ok view → ∀ c ∈ view.schema.columns, ∀ v, c.Holds v →
    ∀ r ∈ db.references, r.hasParent table c.name = true → ∀ change,
      UnlessViolated (.ok ()) (db.checkChildren r v change)
  removal : ∀ {table view}, db.view table none = .ok view → ∀ id,
    UnlessViolated (.ok ()) (db.checkRemoval view (db.references.filter (·.parentTable == table)) id)

theorem Closed.checkChildren (closed : db.Closed) (isView : db.view table none = .ok view)
    (isColumn : c ∈ view.schema.columns) (isHeld : c.Holds v) {r : Reference} (mem : r ∈ db.references)
    (isParent : r.hasParent table c.name = true) (change : RowChange) :
    UnlessViolated (.ok ()) (db.checkChildren r v change) := by
  rw [Database.checkChildren]
  split
  · obtain ⟨found, isFound⟩ := closed.holds_child isView isColumn isHeld mem isParent
    rw [isFound]
    cases found with
    | true => exact .violated _ _
    | false => exact .same
  · exact .same

theorem Closed.decides (closed : db.Closed) : db.Decides where
  parents isView c isColumn v isHeld := by
    rw [checkParents]
    split
    · refine .forM fun r mem => ?_
      obtain ⟨mem, isChild⟩ := List.mem_filter.1 mem
      obtain ⟨found, isFound⟩ := closed.holds_parent isView isColumn isHeld mem isChild
      rw [isFound]
      cases found with
      | true => exact .same
      | false => exact .violated _ _
    · exact .same
  children isView c isColumn v isHeld r mem isParent change :=
    closed.checkChildren isView isColumn isHeld mem isParent change
  removal {table view} isView id := by
    refine .forM fun r mem => ?_
    obtain ⟨mem, isOwn⟩ := List.mem_filter.1 mem
    obtain ⟨c, isColumn, named, v, isRead, isHeld⟩ :=
      closed.read_parent isView mem (beq_iff_eq.1 isOwn) (some id)
    rw [isRead]
    have isParent := Reference.hasParent_iff.2 ⟨beq_iff_eq.1 isOwn, named.symm⟩
    exact closed.checkChildren isView isColumn isHeld mem isParent .delete

end Database

end RelEngine
