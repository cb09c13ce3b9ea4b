import Mathlib.Logic.Relation
import RelEngine.Proofs.Statement.References

/-!
Statements as sequences of small steps. A statement creates or drops one table, or it adds, changes and
removes single rows of one. What every step keeps holds of every database that statements lead to, however
they end.
-/
open Relation (ReflTransGen)

namespace RelEngine

/-- Every column that the statement declares is of this kind. -/
def Statement.Declares (p : Column → Prop) : Statement → Prop
  | .createTable s => ∀ c ∈ s.columns, p c
  | _ => True

instance {p : Column → Prop} [DecidablePred p] : (s : Statement) → Decidable (s.Declares p)
  | .createTable s => inferInstanceAs (Decidable (∀ c ∈ s.columns, p c))
  | .dropTable _ => isTrue trivial
  | .insert _ => isTrue trivial
  | .update _ => isTrue trivial
  | .delete _ => isTrue trivial

theorem Statement.declares_true (s : Statement) : s.Declares fun _ => True := by
  cases s with
  | createTable s => exact fun _ _ => trivial
  | dropTable s => trivial
  | insert s => trivial
  | update s => trivial
  | delete s => trivial

theorem Statement.Regular.declares {s : Statement} (h : s.Regular) : s.Declares Column.Regular := by
  cases s with
  | createTable s => exact h
  | dropTable | insert | update | delete => trivial

namespace Database

/-- One row of a table is added, gets a new value in one field, or is removed. -/
inductive RowStep (db : Database) : Database → Prop where
  | add {table : String} {view : TableView} (isView : db.view table none = .ok view) :
      RowStep db (db.addBlank view)
  | write {table name : String} {view : TableView} {id : RowId} {value : Value} {stores : Stores}
      (isView : db.view table none = .ok view)
      (isWritten : view.write db.stores (some id) name value = .ok stores) :
      RowStep db { db with stores }
  | remove {table : String} {view : TableView} (isView : db.view table none = .ok view) (id : RowId) :
      RowStep db (db.removeRow view id)

/-- One thing that a statement does to a database. The columns that are declared are of the given kind. -/
inductive Step (p : Column → Prop) (db : Database) : Database → Prop where
  | create (s : CreateTable) {new : List Reference} (fresh : db.tables.find? s.table = none)
      (declares : ∀ c ∈ s.columns, p c)
      (resolved : s.foreignKeys.mapM (·.resolve db s.table (Schema.ofColumns s.columns)) = .ok new) :
      Step p db (db.withTable s.table (Schema.ofColumns s.columns) new)
  | drop (table : String) : Step p db (db.withoutTable table)
  | row {db' : Database} (h : RowStep db db') : Step p db db'

variable {p : Column → Prop} {db db' : Database} {table : String} {view : TableView}

/-! ## Changes of rows -/

/-- A step on rows replaces the rows of one table. Rows that have the layout of its schema keep it. -/
theorem RowStep.eq_updateRows (h : RowStep db db') : ∃ table view f,
    db.view table none = .ok view ∧ db' = db.updateRows view f ∧
      ((∀ c ∈ view.schema.columns, c.Sized) →
        (∀ id row, (view.rows db.stores).find? id = some row → row.length = view.schema.rowSize) →
        ∀ id row, (f (view.rows db.stores)).find? id = some row → row.length = view.schema.rowSize) := by
  cases h with
  | @add table view isView =>
    refine ⟨table, view, _, isView, rfl, fun _ whole id row found => ?_⟩
    by_cases new : id = (view.rows db.stores).nextId
    · rw [new, RowStore.find?_allocate_self] at found
      cases found
      exact Row.length_blank _
    · rw [RowStore.find?_allocate_of_ne _ new] at found
      exact whole id row found
  | @write table name view id value stores isView isWritten =>
    obtain ⟨field, old, new, _, isOld, isSet, rfl⟩ := TableView.write_eq_ok_local isWritten
    refine ⟨table, view, _, isView, rfl, fun sized whole other row found => ?_⟩
    by_cases same : other = id
    · rw [same, RowStore.find?_modify_self, isOld] at found
      cases found
      exact Row.length_set sized (whole id old isOld) isSet
    · rw [RowStore.find?_modify_of_ne _ same] at found
      exact whole other row found
  | @remove table view isView id =>
    refine ⟨table, view, _, isView, rfl, fun _ whole other row found => ?_⟩
    exact whole other row (find?_of_erase found).2

theorem RowStep.tables (h : RowStep db db') : db'.tables = db.tables := by
  obtain ⟨_, _, _, _, rfl, _⟩ := h.eq_updateRows
  rfl

theorem tables_of_rowSteps (h : ReflTransGen RowStep db db') : db'.tables = db.tables := by
  induction h with
  | refl => rfl
  | tail _ step ih => exact step.tables.trans ih

theorem view_of_rowSteps (h : ReflTransGen RowStep db db') (isView : db.view table none = .ok view) :
    db'.view table none = .ok view :=
  (view_congr (tables_of_rowSteps h)).trans isView

theorem setAll_rowSteps (isView : db.view table none = .ok view) (id : RowId)
    (fields : List (Column × Value)) :
    ReflTransGen RowStep db ((view.setAll id fields).runFrom db).2 := by
  refine Move.forM_invariant (P := ReflTransGen RowStep db) (fun e _ db' soFar => ?_) .refl
  refine Move.state_bind_result (Move.runFrom_get db') soFar fun _ eq => ?_
  cases eq
  refine Move.state_bind_lift soFar fun stores isWritten => ?_
  exact soFar.tail (.write (view_of_rowSteps soFar isView) isWritten)

theorem insertRow_rowSteps (isView : db.view table none = .ok view) (columns : List Column)
    (row : List Tree) : ReflTransGen RowStep db ((view.insertRow table columns row).runFrom db).2 := by
  refine Move.state_bind_result (Move.runFrom_get db) .refl fun _ eq => ?_
  cases eq
  refine Move.state_bind_result
    (Move.runFrom_mapM_lift (fun e : Column × Tree => db.accepted table e.1 e.2) _ _) .refl
    fun values _ => ?_
  have first : ReflTransGen RowStep db (db.addBlank view) := .single (.add isView)
  exact first.trans (setAll_rowSteps (view_of_rowSteps first isView) _ _)

theorem writeRows_rowSteps (isView : db.view table none = .ok view) (filter : Option Expr)
    (columns : List Column) (ids : List RowId) (rows : List (List Value)) :
    ReflTransGen RowStep db ((view.writeRows filter columns ids rows).runFrom db).2 := by
  induction ids generalizing db rows with
  | nil => exact .refl
  | cons id ids ih =>
    rw [TableView.writeRows.eq_def]
    refine Move.state_bind_result (Move.runFrom_get db) .refl fun _ eq => ?_
    cases eq
    refine Move.state_bind_lift .refl fun accepted _ => ?_
    cases accepted with
    | false => exact ih isView rows
    | true =>
      cases rows with
      | nil => exact .refl
      | cons row rows =>
        have first := setAll_rowSteps isView id (columns.zip row)
        refine Move.state_bind (P := ReflTransGen RowStep db) (fun e db' stopped => ?_)
          fun _ db' done => ?_
        · rw [stopped] at first
          exact first
        · rw [done] at first
          exact first.trans (ih (view_of_rowSteps first isView) rows)

/-! ## Statements -/

theorem insert_rowSteps (db : Database) (s : Insert) :
    ReflTransGen RowStep db (s.run.runFrom db).2 := by
  refine s.run_invariant (P := ReflTransGen RowStep db) .refl ?_
  intro view columns isView _ row db' soFar
  exact soFar.trans (insertRow_rowSteps (view_of_rowSteps soFar isView) columns row)

theorem delete_rowSteps (db : Database) (s : Delete) :
    ReflTransGen RowStep db (s.run.runFrom db).2 := by
  refine s.run_invariant (P := ReflTransGen RowStep db) .refl ?_
  intro view isView row db' soFar _
  exact soFar.tail (.remove (view_of_rowSteps soFar isView) row)

theorem update_rowSteps (db : Database) (s : Update) :
    ReflTransGen RowStep db (s.run.runFrom db).2 := by
  refine Move.state_bind_result (Move.runFrom_get db) .refl fun _ eq => ?_
  cases eq
  refine Move.state_bind_lift .refl fun schema _ => ?_
  refine Move.state_bind_lift .refl fun columns _ => ?_
  refine Move.state_bind_lift .refl fun view isView => ?_
  refine Move.state_bind_result (Move.runFrom_optionMapM_lift _ _ _) .refl fun filter _ => ?_
  refine Move.state_bind_result
    (Move.runFrom_mapM_lift (fun a : String × Tree => a.2.bind view.fieldCheck) _ _) .refl fun values _ => ?_
  refine Move.state_bind_lift .refl fun rows _ => ?_
  exact writeRows_rowSteps isView filter columns _ rows

/-- Whatever a statement comes to, it has made steps. -/
theorem execute_steps (db : Database) {s : Statement} (declares : s.Declares p) :
    ReflTransGen (Step p) db (db.execute s).2 := by
  have lift : ∀ {db'}, ReflTransGen RowStep db db' → ReflTransGen (Step p) db db' := fun h =>
    Relation.ReflTransGen.mono (fun _ _ => Step.row) _ _ h
  cases s with
  | createTable s =>
    change ReflTransGen (Step p) db (s.run.runFrom db).2
    rcases s.run_cases db with ⟨e, failed⟩ | ⟨new, fresh, isNew, done⟩
    · rw [failed]
    · rw [done]
      exact .single (.create s fresh declares isNew)
  | dropTable s =>
    change ReflTransGen (Step p) db (s.run.runFrom db).2
    rcases s.run_cases db with ⟨e, failed⟩ | done
    · rw [failed]
    · rw [done]
      exact .single (.drop s.table)
  | insert s => exact lift (insert_rowSteps db s)
  | update s => exact lift (update_rowSteps db s)
  | delete s => exact lift (delete_rowSteps db s)

/-- What the empty database has and every step keeps, every database has that statements lead to. -/
theorem Reached.invariant {P : Database → Prop} (reached : db.Reached fun _ s => s.Declares p)
    (start : P Database.empty) (step : ∀ db db', Step p db db' → P db → P db') : P db := by
  have steps : ∀ {db db'}, ReflTransGen (Step p) db db' → P db → P db' := by
    intro db db' h before
    induction h with
    | refl => exact before
    | tail _ isStep ih => exact step _ _ isStep ih
  induction reached with
  | empty => exact start
  | @step db s _ declares ih => exact steps (execute_steps db declares) ih

/-! ## Invariants -/

/-- Every table has rows of its own. -/
structure Placed (db : Database) : Prop where
  inside : ∀ {name t}, db.tables.find? name = some t → t.store < db.stores.length
  apart : ∀ {a b t u}, db.tables.find? a = some t → db.tables.find? b = some u →
    t.store = u.store → a = b

theorem placed_empty (stores : Stores) : Placed ⟨stores, .empty, []⟩ := ⟨nofun, nofun⟩

theorem Placed.withReferences (placed : db.Placed) (references : List Reference) :
    Placed { db with references } :=
  ⟨placed.inside, placed.apart⟩

theorem Placed.withTable (placed : db.Placed) (name : String) (schema : Schema)
    (new : List Reference) : (db.withTable name schema new).Placed where
  inside := inside_withTable placed.inside
  apart := apart_withTable placed.inside placed.apart

theorem Placed.withoutTable (placed : db.Placed) (name : String) :
    (db.withoutTable name).Placed where
  inside found := placed.inside (find?_withoutTable found).2
  apart found found' same :=
    placed.apart (find?_withoutTable found).2 (find?_withoutTable found').2 same

theorem Placed.updateRows (placed : db.Placed) (view : TableView) (f : RowStore → RowStore) :
    (db.updateRows view f).Placed where
  inside found := by
    change _ < (Stores.update db.stores _ _).length
    rw [Stores.length_update]
    exact placed.inside found
  apart := placed.apart

/-- The two columns of the reference are there. Either both hold numbers or both hold strings. -/
def Links (db : Database) (r : Reference) : Prop :=
  ∃ t u, db.tables.find? r.childTable = some t ∧ db.tables.find? r.parentTable = some u ∧
    ∃ child ∈ t.schema.columns, child.name = r.childField ∧
      ∃ parent ∈ u.schema.columns, parent.name = r.parentField ∧
        child.type.isNumeric = parent.type.isNumeric

/-- Every reference connects columns of tables that are there. -/
def Connected (db : Database) : Prop :=
  ∀ r ∈ db.references,
    (∃ t, db.tables.find? r.childTable = some t ∧ r.childField ∈ t.schema.names) ∧
      ∃ t, db.tables.find? r.parentTable = some t ∧ r.parentField ∈ t.schema.names

/-- Every table has columns of the given kind and rows with the layout of its schema. -/
structure Laid (p : Column → Prop) (db : Database) : Prop where
  columns : ∀ {name t}, db.tables.find? name = some t → ∀ c ∈ t.schema.columns, p c
  whole : ∀ {name t id row}, db.tables.find? name = some t →
    (db.stores.rowsAt t.store).find? id = some row → row.length = t.schema.rowSize

theorem Laid.fits (laid : db.Laid Column.Regular) (placed : db.Placed) {alias? : Option String}
    (isView : db.view table alias? = .ok view) : view.Fits db := by
  obtain ⟨t, isTable, rfl⟩ := view_eq_ok.1 isView
  exact ⟨placed.inside isTable, laid.columns isTable, fun id row found => laid.whole isTable found⟩

theorem Step.placed (h : Step p db db') (placed : db.Placed) : db'.Placed := by
  cases h with
  | create s => exact placed.withTable _ _ _
  | drop table => exact placed.withoutTable table
  | row h =>
    obtain ⟨_, view, f, _, rfl, _⟩ := h.eq_updateRows
    exact placed.updateRows view f

/-- A new table brings references between columns that were looked up, and a table that goes takes all of its
references with it. -/
theorem Step.links (h : Step p db db') (links : ∀ r ∈ db.references, db.Links r) :
    ∀ r ∈ db'.references, db'.Links r := by
  cases h with
  | @create s new fresh _ resolved =>
    have own := SortedMap.find?_insert_self (m := db.tables) (k := s.table)
      (Table.mk (Schema.ofColumns s.columns) db.stores.length)
    have stays : ∀ {name t}, db.tables.find? name = some t →
        (db.withTable s.table (Schema.ofColumns s.columns) new).tables.find? name = some t := fun found =>
      find?_withTable_of_old fresh found
    intro r mem
    rcases List.mem_append.1 mem with mem | mem
    · obtain ⟨t, u, isTable, isTable', columns⟩ := links r mem
      exact ⟨t, u, stays isTable, stays isTable', columns⟩
    · obtain ⟨fk, _, isReference⟩ := Checked.of_mem_mapM resolved mem
      obtain ⟨isOwn, parentSchema, isSchema, columns⟩ := ForeignKey.resolve_eq_ok isReference
      rw [Links, isOwn]
      rcases isSchema with ⟨isSelf, rfl⟩ | isSchema
      · rw [isSelf]
        exact ⟨_, _, own, own, columns⟩
      · obtain ⟨u, isTable, eq⟩ := Checked.bind_eq_ok.1 isSchema
        cases eq
        exact ⟨_, u, own, stays (table_eq_ok.1 isTable), columns⟩
  | drop table =>
    intro r mem
    obtain ⟨mem, child, parent⟩ := mem_references_withoutTable mem
    obtain ⟨t, u, isTable, isTable', columns⟩ := links r mem
    exact ⟨t, u, (SortedMap.find?_erase_of_ne child).trans isTable,
      (SortedMap.find?_erase_of_ne parent).trans isTable', columns⟩
  | row h =>
    obtain ⟨_, view, f, _, rfl, _⟩ := h.eq_updateRows
    exact links

theorem Step.columns (h : Step p db db')
    (columns : ∀ {name t}, db.tables.find? name = some t → ∀ c ∈ t.schema.columns, p c) {name : String}
    {t : Table} (found : db'.tables.find? name = some t) : ∀ c ∈ t.schema.columns, p c := by
  cases h with
  | create s _ declares _ =>
    rcases find?_withTable found with ⟨rfl, rfl⟩ | old
    · exact fun c mem => declares c (Schema.mem_ofColumns mem)
    · exact columns old
  | drop table => exact columns (find?_withoutTable found).2
  | row h =>
    obtain ⟨_, view, f, _, rfl, _⟩ := h.eq_updateRows
    exact columns found

theorem Step.laid (h : Step p db db') (sized : ∀ c, p c → c.Sized) (placed : db.Placed)
    (laid : db.Laid p) : db'.Laid p := by
  refine ⟨h.columns laid.columns, fun {name t id row} found isRow => ?_⟩
  cases h with
  | create s _ _ _ =>
    change (db.stores.extend.1.rowsAt t.store).find? id = some row at isRow
    rcases find?_withTable found with ⟨rfl, rfl⟩ | old
    · rw [Stores.rowsAt_extend_new] at isRow
      cases isRow
    · rw [Stores.rowsAt_extend_of_lt (placed.inside old)] at isRow
      exact laid.whole old isRow
  | drop table => exact laid.whole (find?_withoutTable found).2 isRow
  | row h =>
    obtain ⟨table, view, f, isView, rfl, whole⟩ := h.eq_updateRows
    obtain ⟨u, isOwn, rfl⟩ := view_eq_ok.1 isView
    by_cases same : t.store = u.store
    · cases placed.apart found isOwn same
      cases (show db.tables.find? name = some t from found).symm.trans isOwn
      change ((Stores.update db.stores t.store f).rowsAt t.store).find? id = some row at isRow
      rw [Stores.rowsAt_update_self f (placed.inside isOwn)] at isRow
      exact whole (fun c mem => sized c (laid.columns isOwn c mem))
        (fun id row found => laid.whole isOwn found) id row isRow
    · rw [rowsAt_updateRows_of_ne same] at isRow
      exact laid.whole found isRow

theorem Reached.placed (reached : db.Reached fun _ s => s.Declares p) : db.Placed :=
  reached.invariant (placed_empty []) fun _ _ step => step.placed

theorem Reached.links (reached : db.Reached fun _ s => s.Declares p) : ∀ r ∈ db.references, db.Links r :=
  reached.invariant nofun fun _ _ step => step.links

theorem Reached.connected (reached : db.Reached fun _ s => s.Declares p) : db.Connected := by
  intro r mem
  obtain ⟨t, u, isTable, isTable', child, isChild, childName, parent, isParent, parentName, -⟩ :=
    reached.links r mem
  exact ⟨⟨t, isTable, List.mem_map.2 ⟨child, isChild, childName⟩⟩, u, isTable',
    List.mem_map.2 ⟨parent, isParent, parentName⟩⟩

theorem Reached.columns (reached : db.Reached fun _ s => s.Declares p) {name : String} {t : Table}
    (found : db.tables.find? name = some t) : ∀ c ∈ t.schema.columns, p c := by
  have declared : ∀ {name t}, db.tables.find? name = some t → ∀ c ∈ t.schema.columns, p c :=
    reached.invariant (P := fun db => ∀ {name t}, db.tables.find? name = some t →
      ∀ c ∈ t.schema.columns, p c) nofun fun _ _ step columns => step.columns columns
  exact declared found

theorem Reached.laid (reached : db.Reached fun _ s => s.Declares p) (sized : ∀ c, p c → c.Sized) :
    db.Laid p := by
  have both : db.Placed ∧ db.Laid p := by
    refine reached.invariant (P := fun db => db.Placed ∧ db.Laid p) ⟨placed_empty [], nofun, nofun⟩ ?_
    rintro db db' step ⟨placed, laid⟩
    exact ⟨step.placed placed, step.laid sized placed laid⟩
  exact both.2

end Database

end RelEngine
