import RelEngine.Proofs.Database.Changes
import RelEngine.Proofs.Scan.Moves
import RelEngine.Statement.Insert

/-!
Writes into the rows of one table. They keep the rows and give their fields only values that are allowed
there; which ones are is left open. Where all of them succeed, each field has the value that was written
to it last.
-/
namespace RelEngine

namespace TableView

variable {t : TableView} {stores stores' : Stores} {id : RowId} {name : String} {value : Value}

/-- What a write that succeeds found, and the one row that it changed. -/
theorem write_eq_ok_local (h : t.write stores (some id) name value = .ok stores') :
    ∃ field row row', t.local? name = some field ∧ (t.rows stores).find? id = some row ∧
      Row.set t.schema row field value = .ok row' ∧
      stores' = stores.update t.store (·.modify id fun _ => row') := by
  obtain ⟨field, resolved, written⟩ := Checked.bind_eq_ok.1 h
  have isLocal : t.local? name = some field := by
    rw [resolve] at resolved
    cases found : t.local? name with
    | none =>
      rw [found] at resolved
      cases resolved
    | some other =>
      rw [found] at resolved
      exact congrArg some (Except.ok.inj resolved)
  simp only at written
  split at written
  · next row found =>
    obtain ⟨row', isSet, eq⟩ := Checked.bind_eq_ok.1 written
    exact ⟨field, row, row', isLocal, found, isSet, (Except.ok.inj eq).symm⟩
  · cases written

theorem write_eq_ok (bare : FieldName.Bare name)
    (h : t.write stores (some id) name value = .ok stores') :
    ∃ row row', (t.rows stores).find? id = some row ∧
      Row.set t.schema row name value = .ok row' ∧
      stores' = stores.update t.store (·.modify id fun _ => row') := by
  obtain ⟨field, row, row', isLocal, found, isSet, same⟩ := write_eq_ok_local h
  rw [local?, bare] at isLocal
  cases has : t.schema.has name with
  | true =>
    rw [has] at isLocal
    cases isLocal
    exact ⟨row, row', found, isSet, same⟩
  | false =>
    rw [has] at isLocal
    cases isLocal

end TableView

/-- In the table of the view the same rows are there, and fields have their old values or allowed ones.
Nothing else is different. -/
structure Rewrites (view : TableView) (allowed : RowId → String → Value → Prop)
    (db db' : Database) : Prop where
  tables : db'.tables = db.tables
  references : db'.references = db.references
  length : db'.stores.length = db.stores.length
  others : ∀ store, store ≠ view.store → db'.stores.rowsAt store = db.stores.rowsAt store
  ids : (view.rows db'.stores).ids = (view.rows db.stores).ids
  rows : ∀ id row', (view.rows db'.stores).find? id = some row' →
    ∃ row, (view.rows db.stores).find? id = some row ∧ row'.length = row.length ∧
      ∀ field, Row.get view.schema row' field = Row.get view.schema row field ∨
        ∃ v, allowed id field v ∧ Row.get view.schema row' field = .ok v

namespace Rewrites

variable {view : TableView} {allowed : RowId → String → Value → Prop} {db db' db'' : Database}
  {id : RowId}

theorem refl : Rewrites view allowed db db where
  tables := rfl
  references := rfl
  length := rfl
  others _ _ := rfl
  ids := rfl
  rows _ row found := ⟨row, found, rfl, fun _ => .inl rfl⟩

theorem trans (h : Rewrites view allowed db db') (h' : Rewrites view allowed db' db'') :
    Rewrites view allowed db db'' where
  tables := h'.tables.trans h.tables
  references := h'.references.trans h.references
  length := h'.length.trans h.length
  others store differ := (h'.others store differ).trans (h.others store differ)
  ids := h'.ids.trans h.ids
  rows id row'' found'' := by
    obtain ⟨row', found', length', fields'⟩ := h'.rows id row'' found''
    obtain ⟨row, found, length, fields⟩ := h.rows id row' found'
    refine ⟨row, found, length'.trans length, fun field => ?_⟩
    rcases fields' field with same | new
    · rw [same]
      exact fields field
    · exact .inr new

theorem weaken {allowed' : RowId → String → Value → Prop} (h : Rewrites view allowed db db')
    (more : ∀ id field v, allowed id field v → allowed' id field v) :
    Rewrites view allowed' db db' :=
  { h with
    rows := fun id row' found' => by
      obtain ⟨row, found, length, fields⟩ := h.rows id row' found'
      refine ⟨row, found, length, fun field => (fields field).imp_right ?_⟩
      rintro ⟨v, isAllowed, isRead⟩
      exact ⟨v, more id field v isAllowed, isRead⟩ }

theorem fits (h : Rewrites view allowed db db') (fits : view.Fits db) : view.Fits db' where
  inside := h.length ▸ fits.inside
  regular := fits.regular
  whole id row' found' := by
    obtain ⟨row, found, length, _⟩ := h.rows id row' found'
    rw [length, fits.whole id row found]

/-- Where nothing is allowed, everything reads as before. -/
theorem read_eq (h : Rewrites view allowed db db') (untouched : ∀ field v, ¬ allowed id field v) :
    view.read db'.stores (some id) = view.read db.stores (some id) := by
  funext name
  rw [TableView.read, TableView.read]
  cases found' : (view.rows db'.stores).find? id with
  | none =>
    have none : (view.rows db.stores).find? id = none := by
      rw [← Option.not_isSome_iff_eq_none]
      intro some
      have mem := RowStore.mem_ids_iff.2 (Option.isSome_iff_exists.1 some)
      rw [← h.ids, RowStore.mem_ids_iff, found'] at mem
      obtain ⟨_, eq⟩ := mem
      cases eq
    rw [Option.bind_some, Option.bind_some, found', none]
  | some row' =>
    obtain ⟨row, found, _, fields⟩ := h.rows id row' found'
    have same : ∀ field, Row.get view.schema row' field = Row.get view.schema row field :=
      fun field => (fields field).resolve_right fun new => by
        obtain ⟨v, isAllowed, _⟩ := new
        exact untouched field v isAllowed
    simp only [Option.bind_some, found', found, same]

theorem write {name : String} {value : Value} {stores : Stores} (fits : view.Fits db)
    (bare : FieldName.Bare name) (ok : allowed id name value)
    (h : view.write db.stores (some id) name value = .ok stores) :
    Rewrites view allowed db { db with stores } := by
  obtain ⟨row, row', found, isSet, rfl⟩ := TableView.write_eq_ok bare h
  have sized : ∀ c ∈ view.schema.columns, c.Sized := fun c mem => (fits.regular c mem).sized
  have whole := fits.whole id row found
  have now : view.rows (db.stores.update view.store (·.modify id fun _ => row')) =
      (view.rows db.stores).modify id fun _ => row' :=
    Stores.rowsAt_update_self _ fits.inside
  refine ⟨rfl, rfl, Stores.length_update _, fun store differ => ?_, ?_, fun other new isNew => ?_⟩
  · exact Stores.rowsAt_update_of_ne _ differ
  · rw [now, RowStore.ids_modify]
  · rw [now] at isNew
    by_cases same : other = id
    · subst same
      rw [RowStore.find?_modify_self, found] at isNew
      cases isNew
      refine ⟨row, found, ?_, fun field => ?_⟩
      · rw [Row.length_set sized whole isSet, whole]
      · by_cases isName : field = name
        · subst isName
          exact .inr ⟨value, ok, Row.get_set_same sized whole isSet⟩
        · exact .inl (Row.get_set_other sized whole isSet isName)
    · rw [RowStore.find?_modify_of_ne _ same] at isNew
      exact ⟨new, isNew, rfl, fun _ => .inl rfl⟩

end Rewrites

/-! ## Lists of writes -/

/-- A value for a field of one row. -/
structure Write where
  id : RowId
  column : Column
  value : Value

/-- One of the writes gives this value to the field of the row. -/
def Write.Among (writes : List Write) (id : RowId) (field : String) (v : Value) : Prop :=
  ∃ w ∈ writes, w.id = id ∧ w.column.name = field ∧ w.value = v

/-- The value that a field has after some writes, if it had `old` before. -/
def Write.valueAfter (writes : List Write) (id : RowId) (field : String) (old : Value) : Value :=
  writes.foldl (fun v w => if w.id = id ∧ w.column.name = field then w.value else v) old

/-- A field keeps its value if nothing is written to it, and else it has a value that was written. -/
theorem Write.valueAfter_mem (writes : List Write) (id : RowId) (field : String) (old : Value) :
    (∀ w ∈ writes, ¬ (w.id = id ∧ w.column.name = field)) ∧ valueAfter writes id field old = old ∨
      ∃ w ∈ writes, w.id = id ∧ w.column.name = field ∧ valueAfter writes id field old = w.value := by
  induction writes generalizing old with
  | nil => exact .inl ⟨nofun, rfl⟩
  | cons w writes ih =>
    rw [valueAfter, List.foldl_cons]
    split
    · next here =>
      rcases ih w.value with ⟨_, same⟩ | ⟨w', mem, there⟩
      · exact .inr ⟨w, List.mem_cons_self, here.1, here.2, same⟩
      · exact .inr ⟨w', List.mem_cons_of_mem _ mem, there⟩
    · next elsewhere =>
      rcases ih old with ⟨none, same⟩ | ⟨w', mem, there⟩
      · exact .inl ⟨List.forall_mem_cons.2 ⟨elsewhere, none⟩, same⟩
      · exact .inr ⟨w', List.mem_cons_of_mem _ mem, there⟩

namespace TableView

variable {view : TableView}

/-- Makes the writes one after the other. -/
def writeAll (view : TableView) (writes : List Write) : Change Unit :=
  writes.forM fun w => do
    let db ← get
    set { db with stores := (← view.write db.stores (some w.id) w.column.name w.value) }

theorem setAll_eq (id : RowId) (fields : List (Column × Value)) :
    view.setAll id fields = view.writeAll (fields.map fun e => ⟨id, e.1, e.2⟩) := by
  rw [writeAll, List.forM_eq_forM, List.forM_map]
  rfl

theorem writeAll_append (before after : List Write) :
    view.writeAll (before ++ after) = view.writeAll before >>= fun _ => view.writeAll after := by
  rw [writeAll, List.forM_eq_forM, List.forM_append]
  rfl

end TableView

namespace Rewrites

variable {view : TableView} {allowed : RowId → String → Value → Prop} {db db' : Database}

/-- Values that are allowed in their fields may be written one after the other. If one cannot be
written, those before it stay. -/
theorem writeAll {writes : List Write} (fits : view.Fits db)
    (columns : ∀ w ∈ writes, w.column ∈ view.schema.columns)
    (ok : ∀ w ∈ writes, allowed w.id w.column.name w.value) :
    Rewrites view allowed db ((view.writeAll writes).runFrom db).2 := by
  refine Move.forM_invariant (P := Rewrites view allowed db) (fun w mem s h => ?_) refl
  refine Move.state_bind_result (Move.runFrom_get s) h fun _ eq => ?_
  cases eq
  refine Move.state_bind_lift h fun stores isWritten => ?_
  have bare := (fits.regular _ (columns w mem)).bare
  exact h.trans (write (h.fits fits) bare (ok w mem) isWritten)

end Rewrites

namespace TableView

variable {view : TableView} {db db' : Database}

theorem runFrom_writeAll_cons (w : Write) (writes : List Write) :
    (view.writeAll (w :: writes)).runFrom db =
      match view.write db.stores (some w.id) w.column.name w.value with
      | .error e => (.error e, db)
      | .ok stores => (view.writeAll writes).runFrom { db with stores } := by
  rw [writeAll, List.forM, Move.runFrom_bind, Move.runFrom_bind_ok (Move.runFrom_get db),
    Move.runFrom_bind, Move.runFrom_lift]
  cases view.write db.stores (some w.id) w.column.name w.value with
  | error e => rfl
  | ok stores => rfl

/-- Writes leave all other rows of the table as they are, and the next id. -/
theorem writeAll_others {writes : List Write} (inside : view.store < db.stores.length)
    (h : (view.writeAll writes).runFrom db = (.ok (), db')) :
    (view.rows db'.stores).nextId = (view.rows db.stores).nextId ∧
      ∀ id, (∀ w ∈ writes, w.id ≠ id) →
        (view.rows db'.stores).find? id = (view.rows db.stores).find? id := by
  induction writes generalizing db with
  | nil =>
    cases h
    exact ⟨rfl, fun _ _ => rfl⟩
  | cons w writes ih =>
    rw [runFrom_writeAll_cons] at h
    cases isWritten : view.write db.stores (some w.id) w.column.name w.value with
    | error e =>
      rw [isWritten] at h
      cases h
    | ok stores =>
      rw [isWritten] at h
      obtain ⟨_, _, new, _, _, _, rfl⟩ := write_eq_ok_local isWritten
      have now : view.rows (db.stores.update view.store (·.modify w.id fun _ => new)) =
          (view.rows db.stores).modify w.id fun _ => new :=
        Stores.rowsAt_update_self _ inside
      obtain ⟨nextId, others⟩ := ih (by rwa [Stores.length_update]) h
      rw [now] at nextId others
      refine ⟨nextId, fun id untouched => ?_⟩
      rw [others id fun w mem => untouched w (List.mem_cons_of_mem _ mem)]
      exact RowStore.find?_modify_of_ne _ (untouched w List.mem_cons_self).symm

/-- A write changes one field of one row. -/
theorem find?_write {id other : RowId} {name : String} {value : Value} {stores : Stores} {row : Bytes}
    (fits : view.Fits db) (bare : FieldName.Bare name)
    (h : view.write db.stores (some id) name value = .ok stores)
    (found : (view.rows db.stores).find? other = some row) :
    ∃ row', (view.rows stores).find? other = some row' ∧ ∀ field v,
      Row.get view.schema row field = .ok v →
      Row.get view.schema row' field = .ok (if id = other ∧ name = field then value else v) := by
  obtain ⟨old, new, isOld, isSet, rfl⟩ := write_eq_ok bare h
  have sized : ∀ c ∈ view.schema.columns, c.Sized := fun c mem => (fits.regular c mem).sized
  have now : view.rows (db.stores.update view.store (·.modify id fun _ => new)) =
      (view.rows db.stores).modify id fun _ => new :=
    Stores.rowsAt_update_self _ fits.inside
  rw [now]
  by_cases same : other = id
  · cases same
    cases found.symm.trans isOld
    refine ⟨new, by rw [RowStore.find?_modify_self, found]; rfl, fun field v isRead => ?_⟩
    by_cases isName : name = field
    · cases isName
      rw [if_pos ⟨rfl, rfl⟩]
      exact Row.get_set_same sized (fits.whole _ _ found) isSet
    · rw [if_neg fun h => isName h.2]
      exact (Row.get_set_other sized (fits.whole _ _ found) isSet (Ne.symm isName)).trans isRead
  · refine ⟨row, by rw [RowStore.find?_modify_of_ne _ same, found], fun field v isRead => ?_⟩
    rw [if_neg fun h => same h.1.symm]
    exact isRead

/-- After writes that succeed each field has the value that was written last. -/
theorem writeAll_eq_ok {writes : List Write} (fits : view.Fits db)
    (columns : ∀ w ∈ writes, w.column ∈ view.schema.columns)
    (h : (view.writeAll writes).runFrom db = (.ok (), db')) {id : RowId} {row : Bytes}
    (found : (view.rows db.stores).find? id = some row) :
    ∃ row', (view.rows db'.stores).find? id = some row' ∧ ∀ field v,
      Row.get view.schema row field = .ok v →
      Row.get view.schema row' field = .ok (Write.valueAfter writes id field v) := by
  induction writes generalizing db row with
  | nil =>
    cases h
    exact ⟨row, found, fun _ _ isRead => isRead⟩
  | cons w writes ih =>
    have bare := (fits.regular _ (columns w List.mem_cons_self)).bare
    rw [runFrom_writeAll_cons] at h
    cases isWritten : view.write db.stores (some w.id) w.column.name w.value with
    | error e =>
      rw [isWritten] at h
      exact nomatch h
    | ok stores =>
      rw [isWritten] at h
      have step : Rewrites view (fun _ _ _ => True) db { db with stores } :=
        Rewrites.write fits bare trivial isWritten
      obtain ⟨row₁, found₁, fields₁⟩ := find?_write fits bare isWritten found
      obtain ⟨row', found', fields'⟩ := ih (step.fits fits)
        (fun w mem => columns w (List.mem_cons_of_mem _ mem)) h found₁
      exact ⟨row', found', fun field v isRead => fields' field _ (fields₁ field v isRead)⟩

end TableView

end RelEngine
