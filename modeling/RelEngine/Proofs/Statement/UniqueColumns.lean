import RelEngine.Proofs.Database.Distinct
import RelEngine.Proofs.Statement.References

/-!
Unique columns along the runs of a database. Every statement leaves their values distinct, whether it
succeeds or stops midway.

An INSERT looks for each value among the rows before it, its own earlier rows included. An UPDATE looks
among the rows as they were, skips a value that does not change, and compares its new values with each
other; only all three together keep the values distinct.
-/
namespace RelEngine

variable {db : Database} {view : TableView} {table field : String} {columns : List Column}

namespace Database

/-! ## Creating and dropping tables -/

/-- A new table has no rows. -/
theorem Distinct.withTable (wf : db.WellFormed) {name : String} {schema : Schema} {new : List Reference}
    (fresh : db.tables.find? name = none) (h : db.Distinct) : (db.withTable name schema new).Distinct := by
  intro other t isTable c mem unique
  rcases find?_withTable isTable with ⟨rfl, rfl⟩ | old
  · intro id id' v w reads
    rw [reads_withTable wf fresh] at reads
    obtain ⟨view, isView, _⟩ := reads
    obtain ⟨u, isOld, _⟩ := view_eq_ok.1 isView
    exact nomatch fresh.symm.trans isOld
  · apply (h other t old c mem unique).of_reads
    intro id v _ reads
    exact (reads_withTable wf fresh).1 reads

theorem Distinct.withoutTable {name : String} (h : db.Distinct) : (db.withoutTable name).Distinct := by
  intro other t isTable c mem unique
  obtain ⟨differ, old⟩ := find?_withoutTable isTable
  apply (h other t old c mem unique).of_reads
  intro id v _ reads
  exact (reads_withoutTable differ).1 reads

/-! ## Adding and removing rows -/

/-- A row of NULLs collides with nothing. -/
theorem Distinct.addBlank (wf : db.WellFormed) (isView : db.view table none = .ok view)
    (h : db.Distinct) : (db.addBlank view).Distinct := by
  intro other t isTable c mem unique
  have bare := (wf.regular isTable c mem).bare
  apply (h other t isTable c mem unique).of_reads
  intro id v notNull reads
  by_cases here : other = table
  · rw [here] at reads ⊢
    have cases := reads_addBlank wf isView bare reads
    split at cases
    · exact absurd cases notNull
    · exact cases
  · exact (reads_updateRows_of_ne wf isView here).1 reads

theorem Distinct.removeRow (wf : db.WellFormed) (isView : db.view table none = .ok view) {row : RowId}
    (h : db.Distinct) : (db.removeRow view row).Distinct := by
  intro other t isTable c mem unique
  apply (h other t isTable c mem unique).of_reads
  intro id v _ reads
  exact reads_of_removeRow wf isView (wf.regular isTable c mem).bare reads

/-- A value that was accepted for a unique column is new to it. -/
theorem AcceptsAs.unused {c : Column} {v : Value} (h : db.AcceptsAs table columns c.name v)
    (inSchema : ∀ d ∈ columns, d ∈ view.schema.columns) (mem : c ∈ view.schema.columns)
    (unique : c.unique = true) {id : RowId} {w : Value} (reads : db.Reads table id c.name w) :
    ¬ Value.Equals v w := by
  obtain ⟨d, isColumn, sameName, tree, accepted⟩ := h
  have same : d = c := List.inj_on_of_nodup_map view.schema.nodup (inSchema d isColumn) mem sameName
  subst same
  exact checkUnique_eq_ok (accepted_eq_ok accepted).1 unique reads

/-- The values of a new row were looked for among all rows that were there before it. -/
theorem Distinct.insertRow (wf : db.WellFormed) (isView : db.view table none = .ok view)
    (inSchema : ∀ c ∈ columns, c ∈ view.schema.columns) (row : List Tree) (h : db.Distinct) :
    ((view.insertRow table columns row).runFrom db).2.Distinct := by
  rcases TableView.insertRow_rewrites wf isView inSchema row with same | written
  · rw [same]
    exact h
  · have isView₁ : (db.addBlank view).view table none = .ok view := isView
    apply written.distinct (wf.addBlank isView) isView₁ (h.addBlank wf isView)
    · rintro c mem unique id v old ⟨_, accepts⟩ _
      right
      intro other w reads equals
      have bare := ((wf.fits isView).regular c mem).bare
      have before := reads_addBlank wf isView bare reads
      split at before
      · exact absurd before equals.ne_none.2
      · exact accepts.unused inSchema mem unique before equals
    · rintro c _ _ id id' v w ⟨isNew, _⟩ ⟨isNew', _⟩ _
      exact isNew.trans isNew'.symm

end Database

/-! ## Statements -/

theorem Update.distinct (wf : db.WellFormed) (s : Update) (h : db.Distinct) :
    (s.run.runFrom db).2.Distinct := by
  rcases s.rewrites_planned wf with same | ⟨view, writes, isView, planned, written⟩
  · rw [same]
    exact h
  · have ownColumn : ∀ c ∈ view.schema.columns, ∀ w ∈ writes, w.column.name = c.name → w.column = c :=
      fun c mem w isWrite same => List.inj_on_of_nodup_map view.schema.nodup
        (mem_writes isView planned w isWrite).1 mem same
    apply written.distinct wf isView h
    · rintro c mem unique _ _ old ⟨w, isWrite, rfl, isField, rfl⟩ reads
      obtain ⟨a, earlier, isColumn, _, _, isNew⟩ := assignment_of_mem_writes isView planned isWrite
      have own : a.column = c := isColumn.trans (ownColumn c mem w isWrite isField)
      obtain ⟨_, current, _, _, isCurrent, checked, _⟩ := Assignment.newValue_eq_ok isNew
      obtain ⟨view', isView', _, isRead⟩ := reads
      cases isView.symm.trans isView'
      rw [own, isRead] at isCurrent
      cases isCurrent
      refine checked.imp_right fun passed other w' reads' => ?_
      rw [own] at passed
      exact Database.checkUnique_eq_ok passed.1 unique reads'
    · rintro c mem unique _ _ _ _ ⟨w, isWrite, rfl, isField, rfl⟩ ⟨w', isWrite', rfl, isField', rfl⟩ equals
      by_contra differ
      have own := ownColumn c mem w isWrite isField
      exact writes_apart planned isWrite isWrite' (isField.trans isField'.symm) (own ▸ unique) differ
        equals

namespace Database

theorem invariant_distinct : Invariant Distinct where
  create wf fresh _ h := h.withTable wf fresh
  drop h := h.withoutTable
  insert wf isView isTargets _ h := h.insertRow wf isView (Schema.targets_eq_ok isTargets) _
  remove wf isView h := h.removeRow wf isView
  update wf h := Update.distinct wf _ h

theorem Reached.distinct (h : db.Reached fun _ s => s.Regular) : db.Distinct := invariant_distinct.reached nofun h

end Database

end RelEngine
