import RelEngine.Proofs.Statement.References
import RelEngine.Proofs.Value.NaN

/-!
Fields that refer to other fields, along the runs of a database. Every value that gets into one was found equal
to a value of the parent, or it is identical to the value before it. So none of them is ever a NaN, also after
the parent is gone.
-/
namespace RelEngine

variable {db db' : Database} {view : TableView} {table : String} {columns : List Column}

namespace Database

/-- No field that refers to another one holds a NaN. -/
def NoNaNRefers (db : Database) : Prop :=
  ∀ r ∈ db.references, ∀ id v, db.Reads r.childTable id r.childField v → v.isNaN = false

/-- Fewer references and fewer values. -/
theorem NoNaNRefers.of_reads (h : db.NoNaNRefers)
    (less : ∀ r ∈ db'.references, r ∈ db.references ∧ ∀ id v,
      db'.Reads r.childTable id r.childField v → db.Reads r.childTable id r.childField v) :
    db'.NoNaNRefers := by
  intro r mem id v reads
  obtain ⟨mem, less⟩ := less r mem
  exact h r mem id v (less id v reads)

/-- A value that finds its parents is no NaN if there is a reference that asks for one. -/
theorem isNaN_of_checkParents {v : Value} {r : Reference} (passed : db.checkParents table r.childField v = .ok ())
    (mem : r ∈ db.references) (isChild : r.childTable = table) : v.isNaN = false := by
  refine Value.isNaN_eq_false fun notNull => ?_
  obtain ⟨_, _, _, equals⟩ := checkParents_eq_ok passed notNull mem (Reference.hasChild_self isChild)
  exact equals.isNaN_left

theorem NoNaNRefers.withTable (wf : db.WellFormed) {name : String} {schema : Schema} {new : List Reference}
    (fresh : db.tables.find? name = none) (own : ∀ r ∈ new, r.childTable = name) (h : db.NoNaNRefers) :
    (db.withTable name schema new).NoNaNRefers := by
  intro r mem id v reads
  rw [reads_withTable wf fresh] at reads
  rcases List.mem_append.1 mem with old | isNew
  · exact h r old id v reads
  · rw [own r isNew] at reads
    obtain ⟨view, isView, _⟩ := reads
    obtain ⟨t, isTable, _⟩ := view_eq_ok.1 isView
    cases fresh.symm.trans isTable

theorem NoNaNRefers.withoutTable {name : String} (h : db.NoNaNRefers) : (db.withoutTable name).NoNaNRefers := by
  refine h.of_reads fun r mem => ?_
  obtain ⟨mem, differ, _⟩ := mem_references_withoutTable mem
  exact ⟨mem, fun id v reads => (reads_withoutTable differ).1 reads⟩

theorem NoNaNRefers.removeRow (wf : db.WellFormed) (isView : db.view table none = .ok view) {row : RowId}
    (h : db.NoNaNRefers) : (db.removeRow view row).NoNaNRefers :=
  h.of_reads fun r mem => ⟨mem, fun _ _ => reads_of_removeRow wf isView (wf.references r mem).1⟩

theorem NoNaNRefers.insertRow (wf : db.WellFormed) (isView : db.view table none = .ok view)
    (inSchema : ∀ c ∈ columns, c ∈ view.schema.columns) (row : List Tree) (h : db.NoNaNRefers) :
    ((view.insertRow table columns row).runFrom db).2.NoNaNRefers := by
  rcases TableView.insertRow_rewrites wf isView inSchema row with same | written
  · rw [same]
    exact h
  · intro r mem id v reads
    have mem : r ∈ db.references := written.references ▸ mem
    refine Value.isNaN_eq_false fun notNull => ?_
    rcases written.reads_origin wf isView (wf.references r mem).1 reads notNull with old | ⟨here, _, accepts⟩
    · exact h r mem id v old
    · obtain ⟨c, _, isField, tree, accepted⟩ := accepts
      exact isNaN_of_checkParents (isField ▸ (accepted_eq_ok accepted).2) mem here

end Database

theorem Update.noNaNRefers (wf : db.WellFormed) (s : Update) (h : db.NoNaNRefers) :
    (s.run.runFrom db).2.NoNaNRefers := by
  rcases s.rewrites wf with same | ⟨view, isView, written⟩
  · rw [same]
    exact h
  · intro r mem id v reads
    rw [written.references] at mem
    by_cases here : r.childTable = s.table
    · rw [here] at reads
      obtain ⟨old, isOld, same | permits⟩ := written.reads_before isView (wf.references r mem).1 reads
      · exact same ▸ h r mem id old (here ▸ isOld)
      · rcases permits old isOld with identical | ⟨parents, _⟩
        · exact Value.isNaN_of_identical identical
        · refine Value.isNaN_eq_false fun notNull => ?_
          obtain ⟨_, _, _, equals⟩ := parents notNull r mem (Reference.hasChild_self here)
          exact equals.isNaN_left
    · exact h r mem id v ((written.reads_other wf isView here).1 reads)

namespace Database

theorem invariant_noNaNRefers : Invariant NoNaNRefers where
  create wf fresh own h := h.withTable wf fresh own
  drop h := h.withoutTable
  insert wf isView isTargets _ h := h.insertRow wf isView (Schema.targets_eq_ok isTargets) _
  remove wf isView h := h.removeRow wf isView
  update wf h := Update.noNaNRefers wf _ h

theorem Reached.noNaNRefers (h : db.Reached fun _ s => s.Regular) : db.NoNaNRefers :=
  invariant_noNaNRefers.reached nofun h

end Database

end RelEngine
