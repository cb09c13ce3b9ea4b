import RelEngine.Proofs.Statement.Catalog
import RelEngine.Proofs.Statement.Delete
import RelEngine.Proofs.Statement.Update
import RelEngine.Statement.Run

/-!
Referential integrity along the runs of a database. Every statement keeps the references that block
changes satisfied, whether it succeeds or stops midway. Only an UPDATE of a table that refers to itself
may take away a parent that another of its own values was checked against.
-/
namespace RelEngine

/-- Every column that the statement declares is regular. -/
def Statement.Regular : Statement → Prop
  | .createTable s => ∀ c ∈ s.columns, c.Regular
  | _ => True

instance : (s : Statement) → Decidable s.Regular
  | .createTable s => inferInstanceAs (Decidable (∀ c ∈ s.columns, c.Regular))
  | .dropTable _ => isTrue trivial
  | .insert _ => isTrue trivial
  | .update _ => isTrue trivial
  | .delete _ => isTrue trivial

/-- Neither the removal nor the change of a parent value that is referred to is let pass. -/
def Reference.Enforced (r : Reference) : Prop := r.onDelete = .noAction ∧ r.onUpdate = .noAction

/-- The statement is an UPDATE of the table that the reference connects with itself. -/
def Statement.UpdatesBothEnds (s : Statement) (r : Reference) : Prop :=
  ∃ u, s = .update u ∧ r.childTable = u.table ∧ r.parentTable = u.table

namespace Database

/-- The databases that come from the empty one by statements, each of which is allowed where it is run.
The statements may fail. -/
inductive Reached (allowed : Database → Statement → Prop) : Database → Prop where
  | empty : Reached allowed empty
  | step {db : Database} {s : Statement} (reached : Reached allowed db) (isAllowed : allowed db s) :
      Reached allowed (db.execute s).2

/-- The database after some statements on the empty one. -/
def afterAll (statements : List Statement) : Database :=
  statements.foldl (fun db s => (db.execute s).2) empty

theorem reached_afterAll {allowed : Database → Statement → Prop} {statements : List Statement}
    (h : ∀ s ∈ statements, ∀ db, allowed db s) : (afterAll statements).Reached allowed := by
  have folded : ∀ (statements : List Statement) (db : Database), db.Reached allowed →
      (∀ s ∈ statements, ∀ db, allowed db s) →
      (statements.foldl (fun db s => (db.execute s).2) db).Reached allowed := by
    intro statements
    induction statements with
    | nil => exact fun _ reached _ => reached
    | cons s statements ih =>
      intro db reached h
      exact ih _ (.step reached (h s List.mem_cons_self _)) fun s mem => h s (List.mem_cons_of_mem _ mem)
  exact folded statements empty .empty h

theorem Reached.weaken {allowed allowed' : Database → Statement → Prop} {db : Database}
    (h : db.Reached allowed) (more : ∀ db s, allowed db s → allowed' db s) : db.Reached allowed' := by
  induction h with
  | empty => exact .empty
  | step _ isAllowed ih => exact .step ih (more _ _ isAllowed)

theorem Preserves.weaken {kind kind' : Reference → Prop} {db db' : Database} (h : Preserves kind db db')
    (less : ∀ r, kind' r → kind r) : Preserves kind' db db' :=
  ⟨h.wellFormed, fun r mem isKind => h.satisfied r mem (less r isKind)⟩

/-- What one statement preserves. -/
theorem execute_preserves {db : Database} (wf : db.WellFormed) {s : Statement} (regular : s.Regular) :
    db.Preserves (fun r => r.Enforced ∧ ¬ s.UpdatesBothEnds r) (db.execute s).2 := by
  cases s with
  | createTable s => exact (s.preserves wf regular).weaken fun _ _ => trivial
  | dropTable s => exact (s.preserves wf).weaken fun _ _ => trivial
  | insert s => exact (s.keeps wf).preserves.weaken fun _ _ => trivial
  | update s =>
    exact (s.keeps wf).preserves.weaken fun r h => ⟨h.1.2, fun both => h.2 ⟨s, rfl, both⟩⟩
  | delete s => exact (s.keeps wf).preserves.weaken fun r h => h.1.1

theorem Reached.wellFormed {db : Database} (h : db.Reached fun _ s => s.Regular) : db.WellFormed := by
  induction h with
  | empty => exact ⟨nofun, nofun, nofun, nofun, nofun⟩
  | step _ regular ih => exact (execute_preserves ih regular).wellFormed

/-- What a new table, a table less, a new row, a row less and an UPDATE keep. Statements of the other kinds are made
of such changes, and the database is well formed before each of them. -/
structure Invariant (P : Database → Prop) : Prop where
  create : ∀ {db : Database} {name schema new}, db.WellFormed → db.tables.find? name = none →
    (∀ r ∈ new, r.childTable = name) → P db → P (db.withTable name schema new)
  drop : ∀ {db : Database} {name}, P db → P (db.withoutTable name)
  insert : ∀ {db : Database} {table view fields columns row}, db.WellFormed → db.view table none = .ok view →
    view.schema.targets fields = .ok columns → row.length = columns.length → P db →
      P ((view.insertRow table columns row).runFrom db).2
  remove : ∀ {db : Database} {table view row}, db.WellFormed → db.view table none = .ok view → P db →
    P (db.removeRow view row)
  update : ∀ {db : Database} {s : Update}, db.WellFormed → P db → P (s.run.runFrom db).2

/-- It is kept by every statement, whether it succeeds or stops midway. -/
theorem Invariant.execute {P : Database → Prop} (h : Invariant P) {db : Database} (wf : db.WellFormed)
    (before : P db) (s : Statement) : P (db.execute s).2 := by
  cases s with
  | createTable s =>
    change P (s.run.runFrom db).2
    rcases s.run_cases db with ⟨e, failed⟩ | ⟨new, fresh, areNew, done⟩
    · rw [failed]
      exact before
    · rw [done]
      refine h.create wf fresh (fun r mem => ?_) before
      obtain ⟨fk, _, isReference⟩ := Checked.of_mem_mapM areNew mem
      exact (ForeignKey.resolve_eq_ok isReference).1
  | dropTable s =>
    change P (s.run.runFrom db).2
    rcases s.run_cases db with ⟨e, failed⟩ | done
    · rw [failed]
      exact before
    · rw [done]
      exact h.drop before
  | insert s =>
    refine (s.run_targets (P := fun db' => db.Keeps (fun _ => True) db' ∧ P db') ⟨.refl wf, before⟩ ?_).2
    rintro view columns isView isTargets row whole db' ⟨soFar, holds⟩
    have isView' := (view_congr soFar.tables).trans isView
    exact ⟨soFar.trans (TableView.insertRow_keeps soFar.wellFormed isView'
      (Schema.targets_eq_ok isTargets) row), h.insert soFar.wellFormed isView' isTargets whole holds⟩
  | update s => exact h.update wf before
  | delete s =>
    refine (s.run_invariant (P := fun db' => db.Keeps (fun r => r.onDelete = .noAction) db' ∧ P db')
      ⟨.refl wf, before⟩ ?_).2
    rintro view isView row db' ⟨soFar, holds⟩ isRemoved
    have isView' := (view_congr soFar.tables).trans isView
    rw [← soFar.references] at isRemoved
    exact ⟨soFar.trans (.removeRow soFar.wellFormed isView' isRemoved),
      h.remove soFar.wellFormed isView' holds⟩

theorem Invariant.reached {P : Database → Prop} (h : Invariant P) (start : P .empty) {db : Database}
    (reached : db.Reached fun _ s => s.Regular) : P db := by
  induction reached with
  | empty => exact start
  | step reached _ ih => exact h.execute reached.wellFormed ih _

/-- A statement leaves each enforced reference satisfied that was so before or that it declares itself,
whether it succeeds or stops midway. The exception is an UPDATE for a reference of its table to itself.
Along runs without such UPDATEs all enforced references are always satisfied.

All columns are regular: their names are bare, and those that are not strings have the size of their type. -/
theorem references_satisfied :
    (∀ (db : Database) (s : Statement), db.Reached (fun _ s => s.Regular) → s.Regular →
      ∀ r ∈ (db.execute s).2.references, r.Enforced → db.Satisfied r ∨ r ∉ db.references →
        ¬ s.UpdatesBothEnds r → (db.execute s).2.Satisfied r) ∧
    ∀ db : Database, db.Reached
        (fun db s => s.Regular ∧ ∀ r ∈ db.references, r.Enforced → ¬ s.UpdatesBothEnds r) →
      ∀ r ∈ db.references, r.Enforced → db.Satisfied r := by
  constructor
  · intro db s reached regular r mem enforced before others
    exact (execute_preserves reached.wellFormed regular).satisfied r mem ⟨enforced, others⟩
      fun old => before.resolve_right fun new => new old
  · intro db reached
    induction reached with
    | empty => exact nofun
    | @step db s reached isAllowed ih =>
      intro r mem enforced
      have wf := (reached.weaken fun _ _ isAllowed => isAllowed.1).wellFormed
      refine (execute_preserves wf isAllowed.1).satisfied r mem ⟨enforced, ?_⟩ fun old =>
        ih r old enforced
      -- An UPDATE declares no references.
      rintro ⟨u, rfl, both⟩
      have old : r ∈ db.references := (u.keeps wf).references ▸ mem
      exact isAllowed.2 r old enforced ⟨u, rfl, both⟩

/-- A table of two numbers, and one with a number that refers to one of them. -/
def parentAndChild : List Statement :=
  [.createTable ⟨"p", [.plain "id" .int 0], []⟩,
    .createTable ⟨"c", [.plain "ref" .int 0], [⟨"ref", "p", "id", .noAction, .noAction⟩]⟩,
    .insert ⟨"p", none, [[.const (some (.int 2))], [.const (some (.int 1))]]⟩,
    .insert ⟨"c", none, [[.const (some (.int 1))]]⟩]

theorem references_satisfied_delete :
    ((afterAll parentAndChild).execute (.delete ⟨"p", none⟩)).1.toOption = none ∧
      ((afterAll parentAndChild).execute (.delete ⟨"p", none⟩)).2.values "p" "id" = [some (.int 1)] ∧
      ((afterAll parentAndChild).execute (.delete ⟨"p", none⟩)).2.Satisfied
        ⟨"c", "ref", "p", "id", .noAction, .noAction⟩ := by
  have noUpdate : ∀ s ∈ parentAndChild, ∀ db : Database,
      s.Regular ∧ ∀ r ∈ db.references, r.Enforced → ¬ s.UpdatesBothEnds r := by
    have regular : ∀ s ∈ parentAndChild, s.Regular := by decide +kernel
    refine fun s mem db => ⟨regular s mem, ?_⟩
    rintro r _ _ ⟨u, rfl, _⟩
    simp [parentAndChild] at mem
  have reached := reached_afterAll noUpdate
  refine ⟨by decide +kernel, by decide +kernel, ?_⟩
  refine references_satisfied.1 _ (.delete ⟨"p", none⟩)
    (reached.weaken fun _ _ isAllowed => isAllowed.1) trivial _ (by decide +kernel) ⟨rfl, rfl⟩ (.inl ?_)
    fun ⟨_, eq, _⟩ => nomatch eq
  exact references_satisfied.2 _ reached _ (by decide +kernel) ⟨rfl, rfl⟩

end Database

end RelEngine
