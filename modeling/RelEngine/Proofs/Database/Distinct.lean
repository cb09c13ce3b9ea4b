import RelEngine.Proofs.Database.Permits

/-!
Fields in which no two rows hold equal values, under changes of the rows.

A new value may equal one that a row held before only if that row is its own: either the value is new to
the field, or it is identical to the value that it replaces. Two new values are compared with each other.
-/
namespace RelEngine

namespace Database

/-- No two rows hold equal values in the field. NULL and NaN equal nothing and may occur often. -/
def DistinctIn (db : Database) (table field : String) : Prop :=
  ∀ id id' v w, db.Reads table id field v → db.Reads table id' field w → Value.Equals v w → id = id'

/-- Every unique column holds distinct values. -/
def Distinct (db : Database) : Prop :=
  ∀ table t, db.tables.find? table = some t → ∀ c ∈ t.schema.columns, c.unique = true →
    db.DistinctIn table c.name

variable {db db' : Database} {table field : String}

/-- Fewer values are no less distinct. -/
theorem DistinctIn.of_reads (h : db.DistinctIn table field)
    (less : ∀ id v, v ≠ none → db'.Reads table id field v → db.Reads table id field v) :
    db'.DistinctIn table field := by
  intro id id' v w reads reads' equals
  obtain ⟨notNull, notNull'⟩ := equals.ne_none
  exact h id id' v w (less id v notNull reads) (less id' w notNull' reads') equals

end Database

namespace Rewrites

variable {db db' : Database} {table : String} {view : TableView}
  {allowed : RowId → String → Value → Prop}

/-- Values stay distinct if each new one is new to the field or identical to the one it replaces, and the
new ones are distinct among themselves. -/
theorem distinctIn {field : String} (isView : db.view table none = .ok view)
    (h : Rewrites view allowed db db') (bare : FieldName.Bare field)
    (before : db.DistinctIn table field)
    (fresh : ∀ id v old, allowed id field v → db.Reads table id field old →
      Value.identical v old = true ∨
        ∀ other w, db.Reads table other field w → ¬ Value.Equals v w)
    (apart : ∀ id id' v w, allowed id field v → allowed id' field w → Value.Equals v w → id = id') :
    db'.DistinctIn table field := by
  -- A new value that equals an old one of another row is identical to the old one of its own row.
  have crossed : ∀ id id' v w old, allowed id field v → db.Reads table id field old →
      db.Reads table id' field w → Value.Equals v w → id = id' := by
    intro id id' v w old isAllowed isOld reads equals
    rcases fresh id v old isAllowed isOld with identical | unused
    · have same := Value.equals_of_identical identical equals.ne_none.1
      exact before id id' old w isOld reads (same.symm.trans equals)
    · exact absurd equals (unused id' w reads)
  intro id id' v w reads reads' equals
  obtain ⟨old, isOld, rfl | isNew⟩ := h.reads_before isView bare reads
  · obtain ⟨old', isOld', rfl | isNew'⟩ := h.reads_before isView bare reads'
    · exact before id id' v w isOld isOld' equals
    · exact (crossed id' id w v old' isNew' isOld' isOld equals.symm).symm
  · obtain ⟨old', isOld', rfl | isNew'⟩ := h.reads_before isView bare reads'
    · exact crossed id id' v w old isNew isOld isOld' equals
    · exact apart id id' v w isNew isNew' equals

/-- The same for all unique columns of the table. Those of other tables keep their values. -/
theorem distinct (wf : db.WellFormed) (isView : db.view table none = .ok view)
    (h : Rewrites view allowed db db') (before : db.Distinct)
    (fresh : ∀ c ∈ view.schema.columns, c.unique = true → ∀ id v old, allowed id c.name v →
      db.Reads table id c.name old → Value.identical v old = true ∨
        ∀ other w, db.Reads table other c.name w → ¬ Value.Equals v w)
    (apart : ∀ c ∈ view.schema.columns, c.unique = true → ∀ id id' v w, allowed id c.name v →
      allowed id' c.name w → Value.Equals v w → id = id') : db'.Distinct := by
  intro other t isTable c mem unique
  rw [h.tables] at isTable
  have distinct := before other t isTable c mem unique
  by_cases here : other = table
  · subst here
    obtain ⟨u, isOwn, rfl⟩ := Database.view_eq_ok.1 isView
    cases isTable.symm.trans isOwn
    exact h.distinctIn isView (wf.regular isTable c mem).bare distinct (fresh c mem unique)
      (apart c mem unique)
  · apply distinct.of_reads
    intro id v _ reads
    exact (h.reads_other wf isView here).1 reads

end Rewrites

end RelEngine
