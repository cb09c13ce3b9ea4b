import RelEngine.Proofs.Database.Rewrites

/-!
Checked changes of field values, and what they do to references.

A new value is checked against the database as it was when the checks were made. If a table refers to
itself, the parent that a check found may be changed by the same statement, so those references need the
new value to find a parent afterwards.
-/
namespace RelEngine

/-- The field may get a new value: it is identical to the old one, or the references from the field find
it and no reference to the field needs the old one. -/
def Database.Permits (db : Database) (table : String) (id : RowId) (field : String) (new : Value) :
    Prop :=
  ∀ old, db.Reads table id field old → Value.identical new old = true ∨
    (new ≠ none → ∀ r ∈ db.references, r.hasChild table field = true →
      ∃ parent w, db.Reads r.parentTable parent r.parentField w ∧ Value.Equals new w) ∧
    (old ≠ none → ∀ r ∈ db.references, r.hasParent table field = true → r.onUpdate = .noAction →
      ∀ id w, db.Reads r.childTable id r.childField w → ¬ Value.Equals old w)

theorem Database.WellFormed.rewrites {db db' : Database} (wf : db.WellFormed) {view : TableView}
    {allowed : RowId → String → Value → Prop} (h : Rewrites view allowed db db') :
    db'.WellFormed where
  inside found := h.length ▸ wf.inside (h.tables ▸ found)
  apart found found' same := wf.apart (h.tables ▸ found) (h.tables ▸ found') same
  regular found := wf.regular (h.tables ▸ found)
  whole {name t id row} found isRow := by
    rw [h.tables] at found
    by_cases same : t.store = view.store
    · rw [same] at isRow
      obtain ⟨old, isOld, length, _⟩ := h.rows id row isRow
      rw [TableView.rows, ← same] at isOld
      rw [length, wf.whole found isOld]
    · rw [h.others _ same] at isRow
      exact wf.whole found isRow
  references r mem := wf.references r (h.references ▸ mem)

namespace Rewrites

variable {db db' : Database} {table other field : String} {view : TableView}
  {allowed : RowId → String → Value → Prop} {id : RowId} {v : Value}

/-! ## What is read before and after -/

theorem reads_other (wf : db.WellFormed) (isView : db.view table none = .ok view)
    (h : Rewrites view allowed db db') (differ : other ≠ table) :
    db'.Reads other id field v ↔ db.Reads other id field v := by
  refine Database.reads_congr (by rw [h.tables]) fun t isTable => h.others _ fun same => ?_
  obtain ⟨u, isOwn, rfl⟩ := Database.view_eq_ok.1 isView
  exact differ (wf.apart isTable isOwn same)

/-- A value that is read afterwards stands where another one stood, or the same. -/
theorem reads_before (isView : db.view table none = .ok view) (h : Rewrites view allowed db db')
    (bare : FieldName.Bare field) (reads : db'.Reads table id field v) :
    ∃ old, db.Reads table id field old ∧ (v = old ∨ allowed id field v) := by
  have isView' := (Database.view_congr h.tables).trans isView
  obtain ⟨row', found', isRead⟩ := (Database.reads_view isView' bare).1 reads
  obtain ⟨row, found, _, fields⟩ := h.rows id row' found'
  rcases fields field with same | ⟨w, isAllowed, isNew⟩
  · rw [isRead] at same
    exact ⟨v, (Database.reads_view isView bare).2 ⟨row, found, same.symm⟩, .inl rfl⟩
  · obtain ⟨slot, isSlot, _⟩ := Checked.bind_eq_ok.1 isNew
    have isOld : Row.get view.schema row field = _ := Row.read_eq (Schema.slot_eq_ok.1 isSlot)
    cases isRead.symm.trans isNew
    exact ⟨_, (Database.reads_view isView bare).2 ⟨row, found, isOld⟩, .inr isAllowed⟩

/-- Where a value stood, it stands afterwards or an allowed one. -/
theorem reads_after (isView : db.view table none = .ok view) (h : Rewrites view allowed db db')
    (bare : FieldName.Bare field) (reads : db.Reads table id field v) :
    ∃ new, db'.Reads table id field new ∧ (new = v ∨ allowed id field new) := by
  have isView' := (Database.view_congr h.tables).trans isView
  obtain ⟨row, found, isRead⟩ := (Database.reads_view isView bare).1 reads
  have mem : id ∈ (view.rows db'.stores).ids := h.ids ▸ RowStore.mem_ids_iff.2 ⟨row, found⟩
  obtain ⟨row', found'⟩ := RowStore.mem_ids_iff.1 mem
  obtain ⟨old, isOld, _, fields⟩ := h.rows id row' found'
  cases found.symm.trans isOld
  rcases fields field with same | ⟨w, isAllowed, isNew⟩
  · rw [isRead] at same
    exact ⟨v, (Database.reads_view isView' bare).2 ⟨row', found', same⟩, .inl rfl⟩
  · exact ⟨w, (Database.reads_view isView' bare).2 ⟨row', found', isNew⟩, .inr isAllowed⟩

/-- After writes that succeed each row reads what was written to it last. -/
theorem reads_writeAll (wf : db.WellFormed) (isView : db.view table none = .ok view)
    {writes : List Write} (columns : ∀ w ∈ writes, w.column ∈ view.schema.columns)
    (h : (view.writeAll writes).runFrom db = (.ok (), db')) (bare : FieldName.Bare field) :
    db'.Reads table id field v ↔
      ∃ old, db.Reads table id field old ∧ v = Write.valueAfter writes id field old := by
  have fits := wf.fits isView
  have kept : Rewrites view (fun _ _ _ => True) db _ := writeAll fits columns fun _ _ => trivial
  rw [h] at kept
  have isView' := (Database.view_congr kept.tables).trans isView
  constructor
  · intro reads
    obtain ⟨old, isOld, _⟩ := kept.reads_before isView bare reads
    obtain ⟨row, found, isRead⟩ := (Database.reads_view isView bare).1 isOld
    obtain ⟨row', found', fields⟩ := TableView.writeAll_eq_ok fits columns h found
    have isNew := (Database.reads_view isView' bare).2 ⟨row', found', fields field old isRead⟩
    exact ⟨old, isOld, reads.unique isNew⟩
  · rintro ⟨old, reads, rfl⟩
    obtain ⟨row, found, isRead⟩ := (Database.reads_view isView bare).1 reads
    obtain ⟨row', found', fields⟩ := TableView.writeAll_eq_ok fits columns h found
    exact (Database.reads_view isView' bare).2 ⟨row', found', fields field old isRead⟩

/-! ## References -/

section

variable {r : Reference}

/-- A parent value that is still needed keeps its row and a value that equals it. -/
theorem parent_after (wf : db.WellFormed) (isView : db.view table none = .ok view)
    (h : Rewrites view (fun id field v => db.Permits table id field v) db db')
    (mem : r ∈ db.references) (noAction : r.onUpdate = .noAction) {parent child : RowId} {u v w : Value}
    (isChild : db.Reads r.childTable child r.childField u) (same : Value.Equals u w)
    (isParent : db.Reads r.parentTable parent r.parentField w) (equals : Value.Equals v w) :
    ∃ w, db'.Reads r.parentTable parent r.parentField w ∧ Value.Equals v w := by
  by_cases here : r.parentTable = table
  · rw [here] at isParent ⊢
    obtain ⟨new, isNew, rfl | permits⟩ :=
      reads_after isView h (wf.references r mem).2 isParent
    · exact ⟨new, isNew, equals⟩
    · rcases permits w isParent with identical | ⟨_, unneeded⟩
      · have notNull : new ≠ none := by
          rintro rfl
          exact equals.ne_none.2 (Value.identical_none identical)
        exact ⟨new, isNew, equals.trans (Value.equals_of_identical identical notNull).symm⟩
      · have isHere := Reference.hasParent_self here
        exact absurd same.symm
          (unneeded equals.ne_none.2 r mem isHere noAction child u isChild)
  · exact ⟨w, (reads_other wf isView h here).2 isParent, equals⟩

/-- Checked changes keep a reference satisfied, except that in a table that refers to itself the values
that are new have to find a parent among the rows as they are afterwards. -/
theorem satisfied (wf : db.WellFormed) (isView : db.view table none = .ok view)
    (h : Rewrites view (fun id field v => db.Permits table id field v) db db')
    (mem : r ∈ db.references) (noAction : r.onUpdate = .noAction) (before : db.Satisfied r)
    (changed : r.childTable = table → r.parentTable = table → ∀ id old new,
      db.Reads table id r.childField old → db'.Reads table id r.childField new → new ≠ old →
      Value.identical new old = false → new ≠ none →
      ∃ parent w, db'.Reads table parent r.parentField w ∧ Value.Equals new w) :
    db'.Satisfied r := by
  intro id v isChild notNull
  -- A value that was there before, or an identical one, keeps the parent of the old value.
  have kept : ∀ old, db.Reads r.childTable id r.childField old →
      (v = old ∨ Value.identical v old = true) →
      ∃ parent w, db'.Reads r.parentTable parent r.parentField w ∧ Value.Equals v w := by
    rintro old isOld (rfl | identical)
    · obtain ⟨parent, w, isParent, equals⟩ := before id v isOld notNull
      exact ⟨parent, h.parent_after wf isView mem noAction isOld equals isParent equals⟩
    · have same := Value.equals_of_identical identical notNull
      obtain ⟨parent, w, isParent, equals⟩ := before id old isOld same.ne_none.2
      exact ⟨parent, h.parent_after wf isView mem noAction isOld equals isParent (same.trans equals)⟩
  by_cases here : r.childTable = table
  · rw [here] at isChild kept
    obtain ⟨old, isOld, rfl | permits⟩ := reads_before isView h (wf.references r mem).1 isChild
    · exact kept v isOld (.inl rfl)
    · by_cases same : v = old ∨ Value.identical v old = true
      · exact kept old isOld same
      · rw [not_or, Bool.not_eq_true] at same
        by_cases self : r.parentTable = table
        · rw [self]
          exact changed here self id old v isOld isChild same.1 same.2 notNull
        · have isHere := Reference.hasChild_self here
          obtain ⟨parents, _⟩ := (permits old isOld).resolve_left (ne_true_of_eq_false same.2)
          obtain ⟨parent, w, isParent, equals⟩ := parents notNull r mem isHere
          exact ⟨parent, w, (reads_other wf isView h self).2 isParent, equals⟩
  · exact kept v ((reads_other wf isView h here).1 isChild) (.inl rfl)

end

end Rewrites

end RelEngine
