import RelEngine.Proofs.Statement.ReferenceChecks

/-!
The catalog of a database and what statements make of it. References connect columns of one kind that are
there, so the checks that statements make for them have no errors of their own: without references every
statement runs the same, unless it finds one violated.
-/
namespace RelEngine

open Checked (UnlessViolated)

/-- The database without its references. -/
def Database.unlinked (db : Database) : Database := { db with references := [] }

/-- The run ends as the one without references, with the same rows, unless it finds a reference violated. It
leaves the tables and the references of the database as they are. -/
inductive Database.RunsAlong {α : Type} (db : Database) :
    Checked α × Database → Checked α × Database → Prop where
  | same (result : Checked α) (stores : Stores) :
      RunsAlong db (result, { db.unlinked with stores }) (result, { db with stores })
  | violated (unlinked : Checked α × Database) (table field : String) (stores : Stores) :
      RunsAlong db unlinked (.error (.foreignKeyViolation table field), { db with stores })

variable {db : Database} {table : String} {view : TableView} {columns : List Column}

namespace Database

/-! ## Runs side by side -/

section

variable {α β : Type} {stores : Stores}

theorem RunsAlong.bind {m₀ m : Change α} {f₀ f : α → Change β} {s₀ s : Database}
    (h : db.RunsAlong (m₀.runFrom s₀) (m.runFrom s))
    (rest : ∀ a stores,
      db.RunsAlong ((f₀ a).runFrom { db.unlinked with stores }) ((f a).runFrom { db with stores })) :
    db.RunsAlong ((m₀ >>= f₀).runFrom s₀) ((m >>= f).runFrom s) := by
  rw [Move.runFrom_bind, Move.runFrom_bind]
  generalize m₀.runFrom s₀ = x₀ at h
  generalize m.runFrom s = x at h
  cases h with
  | violated => exact .violated _ _ _ _
  | same result stores =>
    cases result with
    | error e => exact .same (.error e) stores
    | ok a => exact rest a stores

/-- Steps that only compute results. -/
theorem RunsAlong.bind_result {m₀ m : Change α} {c₀ c : Checked α} {f₀ f : α → Change β}
    (run₀ : m₀.runFrom { db.unlinked with stores } = (c₀, { db.unlinked with stores }))
    (run : m.runFrom { db with stores } = (c, { db with stores })) (h : UnlessViolated c₀ c)
    (rest : ∀ a, c₀ = .ok a →
      db.RunsAlong ((f₀ a).runFrom { db.unlinked with stores }) ((f a).runFrom { db with stores })) :
    db.RunsAlong ((m₀ >>= f₀).runFrom { db.unlinked with stores })
      ((m >>= f).runFrom { db with stores }) := by
  rw [Move.runFrom_bind, Move.runFrom_bind, run₀, run]
  cases h with
  | violated => exact .violated _ _ _ _
  | same =>
    cases c₀ with
    | error e => exact .same (.error e) stores
    | ok a => exact rest a rfl

theorem RunsAlong.bind_lift {c₀ c : Checked α} {f₀ f : α → Change β} (h : UnlessViolated c₀ c)
    (rest : ∀ a, c₀ = .ok a →
      db.RunsAlong ((f₀ a).runFrom { db.unlinked with stores }) ((f a).runFrom { db with stores })) :
    db.RunsAlong (((liftM c₀ : Change α) >>= f₀).runFrom { db.unlinked with stores })
      (((liftM c : Change α) >>= f).runFrom { db with stores }) :=
  .bind_result (Move.runFrom_lift _ _) (Move.runFrom_lift _ _) h rest

theorem RunsAlong.bind_get {f₀ f : Database → Change β}
    (rest : db.RunsAlong ((f₀ { db.unlinked with stores }).runFrom { db.unlinked with stores })
      ((f { db with stores }).runFrom { db with stores })) :
    db.RunsAlong ((get >>= f₀).runFrom { db.unlinked with stores })
      ((get >>= f).runFrom { db with stores }) := by
  rw [Move.runFrom_bind_ok (Move.runFrom_get _), Move.runFrom_bind_ok (Move.runFrom_get _)]
  exact rest

theorem RunsAlong.forM {l : List α} {f₀ f : α → Change PUnit}
    (step : ∀ a ∈ l, ∀ stores,
      db.RunsAlong ((f₀ a).runFrom { db.unlinked with stores }) ((f a).runFrom { db with stores }))
    (stores : Stores) : db.RunsAlong ((l.forM f₀).runFrom { db.unlinked with stores })
      ((l.forM f).runFrom { db with stores }) := by
  induction l generalizing stores with
  | nil => exact .same (.ok ()) stores
  | cons a l ih =>
    rw [List.forM, List.forM]
    refine (step a List.mem_cons_self stores).bind fun _ stores => ?_
    exact ih (fun a mem => step a (List.mem_cons_of_mem _ mem)) stores

end

theorem runsAlong_setAll (db : Database) (view : TableView) (id : RowId) (fields : List (Column × Value))
    (stores : Stores) : db.RunsAlong ((view.setAll id fields).runFrom { db.unlinked with stores })
      ((view.setAll id fields).runFrom { db with stores }) := by
  refine .forM (fun e _ stores => ?_) stores
  refine .bind_get (.bind_lift .same fun written _ => ?_)
  exact .same (.ok ()) written

theorem checkParents_unlinked (db : Database) (table field : String) (v : Value) :
    db.unlinked.checkParents table field v = .ok () := by
  rw [checkParents]
  split
  · rfl
  · rfl

/-! ## Statements -/

theorem Closed.accepted (closed : db.Closed) (isView : db.view table none = .ok view) {c : Column}
    (isColumn : c ∈ view.schema.columns) (tree : Tree) :
    UnlessViolated (db.unlinked.accepted table c tree) (db.accepted table c tree) := by
  refine .bind_same fun e _ => .bind_same fun raw _ => .bind_same fun v isValue => .bind_same fun _ _ => ?_
  refine UnlessViolated.bind ?_ fun _ _ => .same
  rw [checkParents_unlinked]
  exact closed.decides.parents isView c isColumn v (Column.holds_of_normalize isValue)

theorem Closed.runsAlong_insertRow (closed : db.Closed) (isView : db.view table none = .ok view)
    (inSchema : ∀ c ∈ columns, c ∈ view.schema.columns) (row : List Tree) (stores : Stores) :
    db.RunsAlong ((view.insertRow table columns row).runFrom { db.unlinked with stores })
      ((view.insertRow table columns row).runFrom { db with stores }) := by
  refine .bind_get (.bind_result (Move.runFrom_mapM_lift _ _ _) (Move.runFrom_mapM_lift _ _ _) ?_ ?_)
  · refine .mapM fun e mem => ?_
    exact (closed.withStores stores).accepted isView (inSchema _ (List.of_mem_zip mem).1) e.2
  · intro values _
    exact runsAlong_setAll db view _ _ _

theorem Closed.runsAlong_insert (closed : db.Closed) (s : Insert) :
    db.RunsAlong (s.run.runFrom db.unlinked) (s.run.runFrom db) := by
  change db.RunsAlong (s.run.runFrom { db.unlinked with stores := db.stores })
    (s.run.runFrom { db with stores := db.stores })
  refine .bind_get (.bind_lift .same fun schema isSchema => ?_)
  refine .bind_lift .same fun columns isTargets => ?_
  cases s.rows.find? (·.length != columns.length) with
  | some row => exact .same _ db.stores
  | none =>
    refine .bind_lift .same fun view isView => ?_
    rw [← schema_of_view isSchema isView] at isTargets
    exact .forM (fun row _ => closed.runsAlong_insertRow isView (Schema.targets_eq_ok isTargets) row) db.stores

section

variable {filter : Option Expr} {assignments : List Assignment} {id : RowId}

theorem Closed.newValue (closed : db.Closed) (isView : db.view table none = .ok view) {a : Assignment}
    (isColumn : a.column ∈ view.schema.columns) (earlier : List Value) :
    UnlessViolated (a.newValue db.unlinked view table id earlier) (a.newValue db view table id earlier) := by
  refine .bind_same fun raw _ => .bind_same fun v isValue => .bind_same fun current isCurrent => ?_
  simp only
  split
  · refine .bind_same fun _ _ => .bind ?_ fun _ _ => .bind ?_ fun _ _ => .same
    · rw [checkParents_unlinked]
      exact closed.decides.parents isView a.column isColumn v (Column.holds_of_normalize isValue)
    · refine .forM fun r mem => ?_
      obtain ⟨mem, isParent⟩ := List.mem_filter.1 mem
      have isHeld := closed.holds_of_read isView isColumn isCurrent
      exact closed.decides.children isView a.column isColumn current isHeld r mem isParent .update
  · exact .same

theorem Closed.newRows (closed : db.Closed) (isView : db.view table none = .ok view)
    (inSchema : ∀ a ∈ assignments, a.column ∈ view.schema.columns) :
    UnlessViolated (db.unlinked.newRows view table filter assignments)
      (db.newRows view table filter assignments) := by
  refine .foldlM (fun earlier id _ => .bind_same fun accepted _ => ?_) []
  cases accepted with
  | false => exact .same
  | true =>
    refine UnlessViolated.bind (.mapM fun e mem => ?_) fun row _ => .same
    exact closed.newValue isView (inSchema _ (List.fst_mem_of_mem_zipIdx mem)) _

/-- Which rows match, and what is written to them, is read from the rows alone. -/
theorem runsAlong_writeRows (db : Database) (view : TableView) (filter : Option Expr) (columns : List Column)
    (ids : List RowId) (rows : List (List Value)) (stores : Stores) :
    db.RunsAlong ((view.writeRows filter columns ids rows).runFrom { db.unlinked with stores })
      ((view.writeRows filter columns ids rows).runFrom { db with stores }) := by
  induction ids generalizing rows stores with
  | nil => exact .same (.ok ()) stores
  | cons id ids ih =>
    rw [TableView.writeRows.eq_def]
    refine .bind_get (.bind_lift .same fun accepted _ => ?_)
    cases accepted with
    | false => exact ih rows stores
    | true =>
      cases rows with
      | nil => exact .same (.ok ()) stores
      | cons row rows =>
        exact (runsAlong_setAll db view id (columns.zip row) stores).bind fun _ stores => ih rows stores

theorem Closed.runsAlong_update (closed : db.Closed) (s : Update) :
    db.RunsAlong (s.run.runFrom db.unlinked) (s.run.runFrom db) := by
  change db.RunsAlong (s.run.runFrom { db.unlinked with stores := db.stores })
    (s.run.runFrom { db with stores := db.stores })
  refine .bind_get (.bind_lift .same fun schema isSchema => ?_)
  refine .bind_lift .same fun columns isColumns => ?_
  refine .bind_lift .same fun view isView => ?_
  refine .bind_result (Move.runFrom_optionMapM_lift _ _ _)
    (Move.runFrom_optionMapM_lift _ _ _) .same fun filter _ => ?_
  refine RunsAlong.bind_result
    (Move.runFrom_mapM_lift (fun a : String × Tree => a.2.bind view.fieldCheck) _ _)
    (Move.runFrom_mapM_lift (fun a : String × Tree => a.2.bind view.fieldCheck) _ _) .same fun values _ => ?_
  have inSchema := (Schema.targets_go_eq_ok isColumns).2
  rw [← schema_of_view isSchema isView] at inSchema
  refine .bind_lift (closed.newRows isView fun a mem => ?_) fun rows _ =>
    runsAlong_writeRows db view filter columns _ rows db.stores
  obtain ⟨e, inZip, rfl⟩ := List.mem_map.1 mem
  exact inSchema _ (List.of_mem_zip inZip).1

theorem Closed.runsAlong_delete (closed : db.Closed) (s : Delete) :
    db.RunsAlong (s.run.runFrom db.unlinked) (s.run.runFrom db) := by
  change db.RunsAlong (s.run.runFrom { db.unlinked with stores := db.stores })
    (s.run.runFrom { db with stores := db.stores })
  refine .bind_get (.bind_lift .same fun view isView => ?_)
  refine .bind_result (Move.runFrom_optionMapM_lift _ _ _)
    (Move.runFrom_optionMapM_lift _ _ _) .same fun filter _ => ?_
  refine .forM (fun id _ stores => ?_) db.stores
  refine .bind_get (.bind_lift .same fun accepted _ => ?_)
  cases accepted with
  | false => exact .same (.ok ()) stores
  | true =>
    refine .bind_lift ((closed.withStores stores).decides.removal isView id) fun _ _ => ?_
    exact .same (.ok ()) _

end

end Database

/-- The statement is about the rows of a table. -/
def Statement.ChangesRows : Statement → Prop
  | .insert _ | .update _ | .delete _ => True
  | .createTable _ | .dropTable _ => False

namespace Database

theorem unchanged_of_failed {db' : Database} {s : Statement} {e : Error} (kind : ¬ s.ChangesRows)
    (failed : db.execute s = (.error e, db')) : db' = db := by
  cases s with
  | createTable s =>
    change s.run.runFrom db = _ at failed
    rcases s.run_cases db with ⟨x, stopped⟩ | ⟨new, _, _, done⟩
    · rw [stopped] at failed
      exact (Prod.mk.inj failed).2.symm
    · rw [done] at failed
      cases failed
  | dropTable s =>
    change s.run.runFrom db = _ at failed
    rcases s.run_cases db with ⟨x, stopped⟩ | done
    · rw [stopped] at failed
      exact (Prod.mk.inj failed).2.symm
    · rw [done] at failed
      cases failed
  | insert s => exact absurd trivial kind
  | update s => exact absurd trivial kind
  | delete s => exact absurd trivial kind

theorem Closed.runsAlong (closed : db.Closed) {s : Statement} (kind : s.ChangesRows) :
    db.RunsAlong (db.unlinked.execute s) (db.execute s) := by
  cases s with
  | createTable s => cases kind
  | dropTable s => cases kind
  | insert s => exact closed.runsAlong_insert s
  | update s => exact closed.runsAlong_update s
  | delete s => exact closed.runsAlong_delete s

/-- In every database that statements lead to, each reference connects two columns that are there, of one kind,
and no check of a reference misses a table, whatever rows there are. A table that could not be created or
dropped leaves no trace. Provided that no column has a name that is taken for a qualified one, the checks never
fail but for a violation, and nothing else comes of them in a statement about rows. -/
theorem catalog_closed :
    (∀ db : Database, db.Reached (fun _ _ => True) →
      (∀ r ∈ db.references, db.Links r) ∧ ∀ stores, { db with stores }.FindsTables) ∧
    (∀ (db db' : Database) (s : Statement) (e : Error), ¬ s.ChangesRows →
      db.execute s = (.error e, db') → db' = db) ∧
    ∀ db : Database, db.Reached (fun _ s => s.Declares fun c => FieldName.Bare c.name) →
      (∀ stores, { db with stores }.Decides) ∧
        ∀ s : Statement, s.ChangesRows → db.RunsAlong (db.unlinked.execute s) (db.execute s) := by
  refine ⟨fun db reached => ?_, fun db db' s e => unchanged_of_failed, fun db reached => ⟨fun stores => ?_, ?_⟩⟩
  · have declares : ∀ s : Statement, s.Declares fun _ => True := by
      intro s
      cases s with
      | createTable s => exact fun _ _ => trivial
      | dropTable | insert | update | delete => trivial
    have declared : db.Reached fun _ s => s.Declares fun _ => True := reached.weaken fun _ s _ => declares s
    exact ⟨declared.links, fun stores => findsTables declared.links⟩
  · exact (reached.closed.withStores stores).decides
  · exact fun s => reached.closed.runsAlong

/-- Two tables are dropped and created again with other columns. -/
def createdAgain : List Statement :=
  [.createTable ⟨"p", [.plain "id" .int 0], []⟩,
    .createTable ⟨"c", [.plain "ref" .int 0], [⟨"ref", "p", "id", .noAction, .noAction⟩]⟩,
    .dropTable ⟨"c"⟩, .dropTable ⟨"p"⟩,
    .createTable ⟨"p", [.plain "id" .varchar 3], []⟩,
    .createTable ⟨"c", [.plain "ref" .double 0, .plain "name" .varchar 2],
      [⟨"name", "p", "id", .noAction, .noAction⟩]⟩]

/-- A table whose number would refer to a string. -/
def mismatchedTable : CreateTable := ⟨"d", [.plain "n" .int 0], [⟨"n", "p", "id", .noAction, .noAction⟩]⟩

/-- A row without a parent. -/
def orphanRow : Insert := ⟨"c", some ["name"], [[.const (some (.text "x"))]]⟩

theorem catalog_closed_createdAgain :
    (afterAll createdAgain).Links ⟨"c", "name", "p", "id", .noAction, .noAction⟩ ∧
      (afterAll createdAgain).execute (.createTable mismatchedTable) =
        (.error (.typeMismatch .varchar .int), afterAll createdAgain) ∧
      (afterAll createdAgain).Decides ∧
      ((afterAll createdAgain).execute (.insert orphanRow)).1 = .error (.foreignKeyViolation "c" "name") ∧
      (afterAll createdAgain).RunsAlong ((afterAll createdAgain).unlinked.execute (.insert orphanRow))
        ((afterAll createdAgain).execute (.insert orphanRow)) := by
  obtain ⟨links, unchanged, checked⟩ := catalog_closed
  have bare : ∀ s ∈ createdAgain, s.Declares fun c => FieldName.Bare c.name := by decide +kernel
  have reached : (afterAll createdAgain).Reached fun _ s => s.Declares fun c => FieldName.Bare c.name :=
    reached_afterAll fun s mem _ => bare s mem
  have refused : ((afterAll createdAgain).execute (.createTable mismatchedTable)).1 =
      .error (.typeMismatch .varchar .int) := by decide +kernel
  obtain ⟨decides, runsAlong⟩ := checked _ reached
  refine ⟨(links _ (reached.weaken fun _ _ _ => trivial)).1 _ (by decide +kernel), ?_,
    decides (afterAll createdAgain).stores, by decide +kernel, runsAlong (.insert orphanRow) trivial⟩
  exact Prod.ext refused (unchanged _ _ (.createTable mismatchedTable) _ not_false (Prod.ext refused rfl))

end Database

end RelEngine
