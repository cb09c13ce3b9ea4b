import RelEngine.Plan.Update
import RelEngine.Proofs.Database.Contents
import RelEngine.Proofs.Statement.Steps
import RelEngine.Statement.Run

/-!
An INSERT of several rows is as many INSERTs of one row. It appends all of its rows through one reader of the
table, and each check opens a scan of its own; neither can be told from starting anew with every row.

The main statement is `Database.insert_rowByRow`.
-/
namespace RelEngine

theorem Value.isTrue_ofBool (b : Bool) : (ofBool b).isTrue = b := by
  cases b with
  | false => rfl
  | true => rfl

/-! ## Checks by scans -/

/-- The rows with an equal value are what a scan for the value comes to. -/
theorem TableView.hasRow_eq_holds (view : TableView) (stores : Stores) (field : String) (value : Value) :
    (Plan.select (.table view) (.compare .eq (.const value) (.field field))).scan.hasRow stores =
      view.holds stores field value := by
  have lists := ((Plan.table view).lists stores).weaken fun _ impossible => impossible
  refine (Scan.hasRow_select lists ((Plan.table view).length_rows_le stores) _).trans ?_
  rw [rows_table_eq, holds_eq_holdsAmong]
  apply Checked.anyM_eq_of_forall₂
  rw [List.forall₂_map_right_iff, List.forall₂_same]
  intro row _
  simp only [Expr.eval, bind_assoc, Checked.ok_bind]

namespace Database

/-- Whether a scan that is opened for this question alone comes to a row with an equal value. -/
def scanFinds (db : Database) (table field : String) (value : Value) : Checked Bool := do
  let view ← db.view table none
  let found := Expr.exists (.select (.table view) (.compare .eq (.const value) (.field field)))
  return (← found.eval db.stores noFields).isTrue

def scanUnique (db : Database) (table : String) (c : Column) (value : Value) : Checked Unit := do
  if c.unique && !value.isNull then
    if ← db.scanFinds table c.name value then throw (.uniqueViolation table c.name)

def scanParents (db : Database) (table field : String) (value : Value) : Checked Unit := do
  if !value.isNull then
    (db.references.filter (·.hasChild table field)).forM fun r => do
      if !(← db.scanFinds r.parentTable r.parentField value) then
        throw (.foreignKeyViolation table field)

/-- A value as a column takes it, checked by scans. -/
def scanAccepted (db : Database) (table : String) (c : Column) (tree : Tree) : Checked Value := do
  let value ← (← tree.bind .forbidden).eval db.stores noFields
  let value ← c.normalize value
  db.scanUnique table c value
  db.scanParents table c.name value
  return value

theorem scanFinds_eq (db : Database) (table field : String) (value : Value) :
    db.scanFinds table field value = db.holds table field value := by
  refine congrArg (_ >>= ·) (funext fun view => ?_)
  simp only [Expr.eval, view.hasRow_eq_holds, bind_assoc, pure_bind, Value.isTrue_ofBool, bind_pure]

theorem scanAccepted_eq (db : Database) (table : String) (c : Column) (tree : Tree) :
    db.scanAccepted table c tree = db.accepted table c tree := by
  have unique : db.scanUnique = db.checkUnique := by
    funext table c value
    simp only [scanUnique, scanFinds_eq]
    rfl
  have parents : db.scanParents = db.checkParents := by
    funext table field value
    simp only [scanParents, scanFinds_eq]
    rfl
  rw [scanAccepted, unique, parents]
  rfl

end Database

/-! ## One reader for all rows -/

/-- Writes values into the row that a reader of the table stands on. -/
def TableView.setCurrent (view : TableView) (fields : List (Column × Value)) :
    Move (Database × Position) Unit :=
  fields.forM fun (column, value) => do
    let (db, position) ← get
    let stores ← (Plan.table view).write db.stores position column.name value
    set (({ db with stores }, position) : Database × Position)

/-- Appends a row of values through a reader of the table, which then stands on it. -/
def TableView.appendRow (view : TableView) (table : String) (columns : List Column) (row : List Tree) :
    Move (Database × Position) Unit := do
  let (db, position) ← get
  let values ← (columns.zip row).mapM fun (column, tree) => db.scanAccepted table column tree
  let (stores, position) := (Plan.table view).insert db.stores position
  set (({ db with stores }, position) : Database × Position)
  view.setCurrent (columns.zip values)

/-- An INSERT whose rows all go through one reader, from wherever that stands. -/
def Insert.append (s : Insert) : Move (Database × Position) Unit := do
  let (db, _) ← get
  let columns ← (← db.schema s.table).targets s.fields
  match s.rows.find? (·.length != columns.length) with
  | some row => throw (.invalidQuery (.wrongArity columns.length row.length))
  | none =>
    let view ← db.view s.table none
    s.rows.forM (view.appendRow s.table columns)

namespace TableView

variable (view : TableView) (table : String) (columns : List Column) (row : List Tree)

theorem agree_setCurrent (id : RowId) (fields : List (Column × Value)) (db : Database) :
    Move.Agree (fun db t => t = (db, Position.onRow id)) ((view.setAll id fields).runFrom db)
      ((view.setCurrent fields).runFrom (db, .onRow id)) := by
  refine Move.agree_forM (List.forall₂_same.2 fun e _ => rfl) ?_ rfl
  rintro e _ rfl db _ rfl
  refine Move.agree_bind_get ?_
  exact Move.agree_bind_lift rfl rfl fun stores _ => ⟨rfl, rfl⟩

/-- Where the reader stands decides nothing. It leaves that place for the row that is added, and all values are
then written there. -/
theorem agree_appendRow (db : Database) (position : Position) :
    Move.Agree (fun db t => t.1 = db) ((view.insertRow table columns row).runFrom db)
      ((view.appendRow table columns row).runFrom (db, position)) := by
  refine Move.agree_bind_get ?_
  refine Move.agree_bind_of_eq (Move.runFrom_mapM_lift _ _ _) (Move.runFrom_mapM_lift _ _ _) ?_ rfl
    fun values _ => ?_
  · simp only [Database.scanAccepted_eq]
  · refine (view.agree_setCurrent (view.nextId db) (columns.zip values) (db.addBlank view)).weaken ?_
    rintro db _ rfl
    rfl

end TableView

theorem Insert.agree_append (s : Insert) (db : Database) (position : Position) :
    Move.Agree (fun db t => t.1 = db) (s.run.runFrom db) (s.append.runFrom (db, position)) := by
  refine Move.agree_bind_get ?_
  refine Move.agree_bind_lift rfl rfl fun schema _ => ?_
  refine Move.agree_bind_lift rfl rfl fun columns _ => ?_
  cases s.rows.find? (·.length != columns.length) with
  | some row => exact ⟨rfl, rfl⟩
  | none =>
    refine Move.agree_bind_lift rfl rfl fun view _ => ?_
    refine Move.agree_forM (List.forall₂_same.2 fun row _ => rfl) ?_ rfl
    rintro row _ rfl db ⟨_, position⟩ rfl
    exact view.agree_appendRow s.table columns row _ position

/-! ## One statement for each row -/

/-- The INSERT with other rows. -/
def Insert.withRows (s : Insert) (rows : List (List Tree)) : Insert := { s with rows }

/-- Executes statements in order, up to the first that fails. -/
def Database.executeUntil (db : Database) : List Statement → Checked Unit × Database
  | [] => (.ok (), db)
  | s :: statements =>
    match db.execute s with
    | (.ok (), db') => db'.executeUntil statements
    | (.error e, db') => (.error e, db')

namespace Database

variable {db db' : Database} {view : TableView} {columns : List Column} {s : Insert}
  {rows : List (List Tree)}

theorem execute_withRows (isView : db.view s.table none = .ok view)
    (isTargets : view.schema.targets s.fields = .ok columns)
    (arity : ∀ row ∈ rows, row.length = columns.length) :
    db.execute (.insert (s.withRows rows)) = (rows.forM (view.insertRow s.table columns)).runFrom db :=
  Insert.runFrom_of_targets (s := s.withRows rows) isView isTargets arity

/-- The induction is on the rows, over any database that the rows before them left: its tables are the same, and so
are the columns that are asked for. -/
theorem executeUntil_rows (isView : db.view s.table none = .ok view)
    (isTargets : view.schema.targets s.fields = .ok columns)
    (arity : ∀ row ∈ rows, row.length = columns.length) :
    db.executeUntil (rows.map fun row => .insert (s.withRows [row])) =
      (rows.forM (view.insertRow s.table columns)).runFrom db := by
  induction rows generalizing db with
  | nil => rfl
  | cons row rows ih =>
    obtain ⟨ofRow, ofRows⟩ := List.forall_mem_cons.1 arity
    have first := execute_withRows isView isTargets (List.forall_mem_singleton.2 ofRow)
    rw [Move.runFrom_forM_singleton] at first
    have steps := insertRow_rowSteps isView columns row
    rw [List.map_cons, executeUntil, first, List.forM, Move.runFrom_bind]
    generalize (view.insertRow s.table columns row).runFrom db = outcome at steps
    rcases outcome with ⟨_ | _, db'⟩
    · rfl
    · exact ih (view_of_rowSteps steps isView) ofRows

/-- After some of its rows an INSERT goes on as one of the other rows would. -/
theorem execute_append {before after : List (List Tree)} (isView : db.view s.table none = .ok view)
    (isTargets : view.schema.targets s.fields = .ok columns)
    (arity : ∀ row ∈ before ++ after, row.length = columns.length)
    (done : db.execute (.insert (s.withRows before)) = (.ok (), db')) :
    db.execute (.insert (s.withRows (before ++ after))) = db'.execute (.insert (s.withRows after)) := by
  obtain ⟨ofBefore, ofAfter⟩ := List.forall_mem_append.1 arity
  have steps := insert_rowSteps db (s.withRows before)
  have left : ((s.withRows before).run.runFrom db).2 = db' := congrArg Prod.snd done
  rw [left] at steps
  rw [execute_withRows isView isTargets ofBefore] at done
  rw [execute_withRows isView isTargets arity,
    execute_withRows (view_of_rowSteps steps isView) isTargets ofAfter, List.forM_eq_forM,
    List.forM_append]
  exact Move.runFrom_bind_ok done

/-- An INSERT of rows that all have the length that is asked for ends as the INSERTs of the single rows do, up to the
first that fails: with the same error or none, and in the same database. So what comes after some of its rows is
checked against the database that they left. It ends so too if one reader appends all of the rows, wherever that
stands at first, while each check scans the tables as they then are. -/
theorem insert_rowByRow (db : Database) (s : Insert) (nonempty : s.rows ≠ [])
    (arity : ∀ columns, db.targets s = .ok columns → ∀ row ∈ s.rows, row.length = columns.length) :
    db.execute (.insert s) = db.executeUntil (s.rows.map fun row => .insert (s.withRows [row])) ∧
    (∀ before after db', s.rows = before ++ after →
      db.execute (.insert (s.withRows before)) = (.ok (), db') →
      db.execute (.insert s) = db'.execute (.insert (s.withRows after))) ∧
    ∀ position, ∃ last, s.append.runFrom (db, position) =
      ((db.execute (.insert s)).1, (db.execute (.insert s)).2, last) := by
  refine ⟨?_, ?_, fun position => ?_⟩
  · cases isAsked : db.targets s with
    | error e =>
      obtain ⟨row, rows, isRows⟩ := List.exists_cons_of_ne_nil nonempty
      have first : db.execute (.insert (s.withRows [row])) = (.error e, db) :=
        Insert.runFrom_of_no_targets isAsked
      rw [isRows, List.map_cons, executeUntil, first]
      exact Insert.runFrom_of_no_targets isAsked
    | ok columns =>
      obtain ⟨view, isView, isTargets⟩ := targets_eq_ok isAsked
      have whole := arity columns isAsked
      rw [executeUntil_rows isView isTargets whole]
      exact execute_withRows isView isTargets whole
  · intro before after db' isRows done
    cases isAsked : db.targets s with
    | error e =>
      have refused : db.execute (.insert (s.withRows before)) = (.error e, db) :=
        Insert.runFrom_of_no_targets isAsked
      cases refused.symm.trans done
    | ok columns =>
      obtain ⟨view, isView, isTargets⟩ := targets_eq_ok isAsked
      have whole := isRows ▸ arity columns isAsked
      rw [← execute_append isView isTargets whole done, ← isRows]
      rfl
  · obtain ⟨result, states⟩ := s.agree_append db position
    exact ⟨_, Prod.ext result (Prod.ext states rfl)⟩

end Database

/-- A table that refers to itself. -/
def CreateTable.tree : CreateTable where
  table := "t"
  columns := [(Column.plain "id" .int 0).distinct, .plain "parent" .int 0]
  foreignKeys := [⟨"parent", "t", "id", .noAction, .noAction⟩]

/-- A root, a child of it, and the child again. -/
def Insert.childTwice : Insert where
  table := "t"
  fields := none
  rows := [[.const (some (.int 1)), .const none], [.const (some (.int 2)), .const (some (.int 1))],
    [.const (some (.int 2)), .const (some (.int 1))]]

/-- The child finds its parent among the rows before it, and the same child again finds itself. -/
theorem Database.insert_rowByRow_childTwice :
    let db := afterAll [.createTable .tree]
    db.execute (.insert .childTwice) =
        db.executeUntil (Insert.childTwice.rows.map fun row => .insert (Insert.childTwice.withRows [row])) ∧
      (db.execute (.insert .childTwice)).1 = .error (.uniqueViolation "t" "id") ∧
      (db.execute (.insert .childTwice)).2.listRows "t" =
        .ok [[.ok (some (.int 1)), .ok none], [.ok (some (.int 2)), .ok (some (.int 1))]] := by
  have targets : (afterAll [.createTable .tree]).targets .childTwice = .ok CreateTable.tree.columns := by
    decide +kernel
  have arity : ∀ columns, (afterAll [.createTable .tree]).targets .childTwice = .ok columns →
      ∀ row ∈ Insert.childTwice.rows, row.length = columns.length := by
    intro columns isAsked
    cases targets.symm.trans isAsked
    decide
  refine ⟨(insert_rowByRow _ .childTwice nofun arity).1, ?_, ?_⟩
  · decide +kernel
  · decide +kernel

end RelEngine
