import RelEngine.Proofs.Database.Changes
import RelEngine.Proofs.Scan.Moves
import RelEngine.Statement.Delete

/-!
A DELETE removes a row only if no child needs it. The check is made again for each row, on the table as
the rows before it left it.
-/
namespace RelEngine

variable {db : Database} {view : TableView} {table other field : String} {id row : RowId} {v : Value}

namespace Database

/-- The database without a row of the table of the view. -/
def removeRow (db : Database) (view : TableView) (row : RowId) : Database :=
  db.updateRows view (·.erase row)

theorem find?_of_erase {rows : RowStore} {bytes : Bytes}
    (found : (rows.erase row).find? id = some bytes) : id ≠ row ∧ rows.find? id = some bytes := by
  by_cases gone : id = row
  · rw [gone, RowStore.find?_erase_self] at found
    cases found
  · exact ⟨gone, (RowStore.find?_erase_of_ne gone).symm.trans found⟩

theorem WellFormed.removeRow (wf : db.WellFormed) (isView : db.view table none = .ok view) :
    (db.removeRow view row).WellFormed :=
  wf.updateRows isView fun id _ found => (wf.fits isView).whole id _ (find?_of_erase found).2

theorem reads_of_removeRow (wf : db.WellFormed) (isView : db.view table none = .ok view)
    (bare : FieldName.Bare field) (reads : (db.removeRow view row).Reads other id field v) :
    db.Reads other id field v := by
  by_cases same : other = table
  · rw [same] at reads ⊢
    obtain ⟨bytes, found, isRead⟩ := (reads_updateRows wf isView bare).1 reads
    exact (reads_view isView bare).2 ⟨bytes, (find?_of_erase found).2, isRead⟩
  · exact (reads_updateRows_of_ne wf isView same).1 reads

theorem Reads.removeRow (wf : db.WellFormed) (isView : db.view table none = .ok view)
    (bare : FieldName.Bare field) (reads : db.Reads other id field v)
    (kept : other = table → id ≠ row) : (db.removeRow view row).Reads other id field v := by
  by_cases same : other = table
  · have differ := kept same
    rw [same] at reads ⊢
    obtain ⟨bytes, found, isRead⟩ := (reads_view isView bare).1 reads
    exact (reads_updateRows wf isView bare).2
      ⟨bytes, (RowStore.find?_erase_of_ne differ).trans found, isRead⟩
  · exact (reads_updateRows_of_ne wf isView same).2 reads

/-- If no child refers to a row, every child finds its parent without it. -/
theorem Keeps.removeRow (wf : db.WellFormed) (isView : db.view table none = .ok view)
    (h : db.checkRemoval view (db.references.filter (·.parentTable == table)) row = .ok ()) :
    db.Keeps (fun r => r.onDelete = .noAction) (db.removeRow view row) := by
  refine ⟨wf.removeRow isView, rfl, rfl, fun r mem noAction before => ?_⟩
  obtain ⟨childBare, parentBare⟩ := wf.references r mem
  intro id v isChild notNull
  have wasChild := reads_of_removeRow wf isView childBare isChild
  obtain ⟨parent, w, isParent, equals⟩ := before id v wasChild notNull
  refine ⟨parent, w, isParent.removeRow wf isView parentBare fun here gone => ?_, equals⟩
  have isHere : (r.parentTable == table) = true := beq_iff_eq.2 here
  have checked := Checked.forM_eq_ok h r (List.mem_filter.2 ⟨mem, isHere⟩)
  obtain ⟨x, isRead, checked⟩ := Checked.bind_eq_ok.1 checked
  rw [here, gone] at isParent
  obtain ⟨view', isView', _, isRead'⟩ := isParent
  cases isView.symm.trans isView'
  cases isRead.symm.trans isRead'
  exact checkChildren_eq_ok checked equals.ne_none.2 noAction wasChild equals.symm

end Database

/-! ## Deleting -/

/-- What each removal of a row that no child needs keeps is kept by a DELETE, also if it stops at a row
that is needed. -/
theorem Delete.run_invariant {P : Database → Prop} (s : Delete) (start : P db)
    (remove : ∀ view, db.view s.table none = .ok view → ∀ row db', P db' →
      db'.checkRemoval view (db.references.filter (·.parentTable == s.table)) row = .ok () →
      P (db'.removeRow view row)) : P (s.run.runFrom db).2 := by
  refine Move.state_bind_result (Move.runFrom_get db) start fun _ eq => ?_
  cases eq
  refine Move.state_bind_lift start fun view isView => ?_
  refine Move.state_bind_result (Move.runFrom_optionMapM_lift _ _ _) start fun filter isFilter => ?_
  refine Move.forM_invariant (P := P) (fun row _ db' soFar => ?_) start
  refine Move.state_bind_result (Move.runFrom_get db') soFar fun _ eq => ?_
  cases eq
  refine Move.state_bind_lift soFar fun accepted _ => ?_
  cases accepted with
  | false => exact soFar
  | true => exact Move.state_bind_lift soFar fun _ isRemoved => remove view isView row db' soFar isRemoved

/-- A DELETE keeps references satisfied, also if it stops at a row that is needed. -/
theorem Delete.keeps (wf : db.WellFormed) (s : Delete) :
    db.Keeps (fun r => r.onDelete = .noAction) (s.run.runFrom db).2 := by
  refine s.run_invariant (P := db.Keeps fun r => r.onDelete = .noAction) (.refl wf) ?_
  intro view isView row db' soFar isRemoved
  have isView' := (Database.view_congr soFar.tables).trans isView
  rw [← soFar.references] at isRemoved
  exact soFar.trans (Database.Keeps.removeRow soFar.wellFormed isView' isRemoved)

end RelEngine
