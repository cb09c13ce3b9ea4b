import RelEngine.Proofs.Database.Alike
import RelEngine.Statement.Run

/-!
Statements on two databases that are alike. Each comes to the same on both and leaves them alike, as the two
runs read the same, check the same and change the same at every point.
-/
namespace RelEngine

/-- The statement may ask whether the reference lets such a change of its parent table pass. -/
def Statement.Consults : Statement → Reference → RowChange → Prop
  | .createTable _, _, _ => False
  | .dropTable s, r, change => change = .delete ∧ r.parentTable = s.table ∧ r.childTable ≠ s.table
  | .insert _, _, _ => False
  | .update s, r, change =>
    change = .update ∧ r.parentTable = s.table ∧ r.parentField ∈ s.assignments.map (·.1)
  | .delete s, r, change => change = .delete ∧ r.parentTable = s.table

open Database (Alike)

variable {consulted : Reference → RowChange → Prop} {pairs : String → RowId → RowId → Prop}
  {db db' : Database} {table : String} {view view' : TableView} {id id' : RowId}

/-! ## Rows of one table -/

/-- Databases that are alike, with a view of one table in each. -/
structure Database.Facing (consulted : Reference → RowChange → Prop)
    (pairs : String → RowId → RowId → Prop) (table : String) (view view' : TableView)
    (db db' : Database) : Prop where
  alike : Alike consulted pairs db db'
  isView : db.view table none = .ok view
  isView' : db'.view table none = .ok view'

namespace Database.Facing

theorem twin (h : Facing consulted pairs table view view' db db') :
    TableView.Twin (pairs table) db.stores db'.stores view view' := by
  have related : Checked.Related (TableView.Twin (pairs table) db.stores db'.stores)
      (db.view table none) (db'.view table none) := h.alike.related_view none
  rw [h.isView, h.isView'] at related
  cases related with
  | ok twin => exact twin

theorem one (h : Facing consulted pairs table view view' db db') : Relator.BiUnique (pairs table) :=
  h.alike.one table

theorem updateRows (h : Facing consulted pairs table view view' db db') {f f' : RowStore → RowStore}
    (rows : RowStore.Paired (pairs table) (f (view.rows db.stores)) (f' (view'.rows db'.stores))) :
    Facing consulted pairs table view view' (db.updateRows view f) (db'.updateRows view' f') :=
  ⟨h.alike.updateRows h.isView h.isView' rows, h.isView, h.isView'⟩

theorem related_write (h : Facing consulted pairs table view view' db db') (both : pairs table id id')
    (name : String) (value : Value) :
    Checked.Related
      (fun stores stores' =>
        Facing consulted pairs table view view' { db with stores } { db' with stores := stores' })
      (view.write db.stores (some id) name value) (view'.write db'.stores (some id') name value) := by
  rw [TableView.write_eq, TableView.write_eq, h.twin.changed_eq, h.twin.rows.find?_eq h.one both]
  cases view.changed ((view.rows db.stores).find? id) name value with
  | error e => exact .error e
  | ok row => exact .ok (h.updateRows (h.twin.rows.modify h.one both row))

theorem agree_setAll (h : Facing consulted pairs table view view' db db') (both : pairs table id id')
    (fields : List (Column × Value)) :
    Move.Agree (Facing consulted pairs table view view') ((view.setAll id fields).runFrom db)
      ((view'.setAll id' fields).runFrom db') := by
  refine Move.agree_forM (List.forall₂_same.2 fun e _ => rfl) ?_ h
  rintro e _ rfl db db' h
  refine Move.agree_bind_get ?_
  refine Move.agree_bind_of_related (Move.runFrom_lift _ _) (Move.runFrom_lift _ _)
    (h.related_write both e.1.name e.2) h fun stores stores' _ _ written => ?_
  exact ⟨rfl, written⟩

/-! ### Inserting -/

theorem addBlank (h : Facing consulted pairs table view view' db db') :
    Facing consulted pairs table view view' (db.addBlank view) (db'.addBlank view') := by
  apply h.updateRows
  rw [h.twin.schema]
  exact h.twin.rows.allocate _

theorem agree_insertRow (h : Facing consulted pairs table view view' db db') (columns : List Column)
    (row : List Tree) :
    Move.Agree (Facing consulted pairs table view view')
      ((view.insertRow table columns row).runFrom db)
      ((view'.insertRow table columns row).runFrom db') := by
  refine Move.agree_bind_get ?_
  have values : (columns.zip row).mapM (fun e => db'.accepted table e.1 e.2) =
      (columns.zip row).mapM fun e => db.accepted table e.1 e.2 :=
    Checked.mapM_eq_of_forall₂ (List.forall₂_same.2 fun e _ => h.alike.accepted_eq e.1 e.2)
  refine Move.agree_bind_of_eq
    (Move.runFrom_mapM_lift (fun e : Column × Tree => db.accepted table e.1 e.2) _ _)
    (Move.runFrom_mapM_lift (fun e : Column × Tree => db'.accepted table e.1 e.2) _ _) values h
    fun values _ => ?_
  -- The two new rows stand under the ids that were to be given out next.
  exact h.addBlank.agree_setAll (h.twin.rows.later 0) (columns.zip values)

/-! ### Updating -/

section

variable {assignments : List Assignment}

theorem newValue_eq (h : Facing consulted pairs table view view' db db') (both : pairs table id id')
    {a : Assignment} (storeless : a.value.Storeless)
    (asked : ∀ r, r.hasParent table a.column.name = true → consulted r .update)
    (earlier : List Value) :
    a.newValue db' view' table id' earlier = a.newValue db view table id earlier := by
  have children : ∀ current, List.Forall₂
      (fun r r' => db'.checkChildren r' current .update = db.checkChildren r current .update)
      (db.references.filter (·.hasParent table a.column.name))
      (db'.references.filter (·.hasParent table a.column.name)) := by
    intro current
    have matching : List.Forall₂ (fun r r' => r.Matches (consulted r) r')
        (db.references.filter (·.hasParent table a.column.name))
        (db'.references.filter (·.hasParent table a.column.name)) :=
      h.alike.references_filter fun isMatch => by
        rw [Reference.hasParent, Reference.hasParent, isMatch.parentTable, isMatch.parentField]
    refine forall₂_imp_of_mem matching fun r mem r' isMatch => ?_
    exact h.alike.checkChildren_eq isMatch (asked r (List.mem_filter.1 mem).2)
  rw [Assignment.newValue, Assignment.newValue, Assignment.newValueOn, Assignment.newValueOn,
    h.twin.read_eq h.one both, storeless db'.stores db.stores]
  simp only [h.alike.checkUnique_eq, h.alike.checkParents_eq,
    fun current => Checked.forM_eq_of_forall₂ (children current)]

theorem newRow_eq (h : Facing consulted pairs table view view' db db') (both : pairs table id id')
    (storeless : ∀ a ∈ assignments, a.value.Storeless)
    (asked : ∀ a ∈ assignments, ∀ r, r.hasParent table a.column.name = true → consulted r .update)
    (earlier : List (List Value)) :
    db'.newRow view' table assignments earlier id' = db.newRow view table assignments earlier id := by
  apply Checked.mapM_eq_of_forall₂
  rw [List.forall₂_same]
  rintro ⟨a, i⟩ mem
  have isOwn := List.fst_mem_of_mem_zipIdx mem
  exact h.newValue_eq both (storeless a isOwn) (asked a isOwn) _

theorem newRows_eq (h : Facing consulted pairs table view view' db db') {filter : Option Expr}
    (storelessFilter : ∀ e ∈ filter, e.Storeless) (storeless : ∀ a ∈ assignments, a.value.Storeless)
    (asked : ∀ a ∈ assignments, ∀ r, r.hasParent table a.column.name = true → consulted r .update) :
    db'.newRows view' table filter assignments = db.newRows view table filter assignments := by
  apply Checked.foldlM_eq_of_forall₂
  refine h.twin.rows.ids.imp fun id id' both earlier => ?_
  rw [h.twin.accepts_eq h.one both storelessFilter, h.newRow_eq both storeless asked]

end

theorem agree_writeRows (h : Facing consulted pairs table view view' db db') {filter : Option Expr}
    (storeless : ∀ e ∈ filter, e.Storeless) (columns : List Column) {ids ids' : List RowId}
    (both : List.Forall₂ (pairs table) ids ids') (rows : List (List Value)) :
    Move.Agree (Facing consulted pairs table view view')
      ((view.writeRows filter columns ids rows).runFrom db)
      ((view'.writeRows filter columns ids' rows).runFrom db') := by
  -- Whether a row matches is asked on the databases as the rows before it left them.
  induction both generalizing db db' rows with
  | nil => exact ⟨rfl, h⟩
  | @cons id id' ids ids' head _ ih =>
    rw [TableView.writeRows.eq_def, TableView.writeRows.eq_def]
    refine Move.agree_bind_get ?_
    refine Move.agree_bind_lift (h.twin.accepts_eq h.one head storeless) h fun accepted _ => ?_
    cases accepted with
    | false => exact ih h rows
    | true =>
      cases rows with
      | nil => exact ⟨rfl, h⟩
      | cons row rows =>
        exact (h.agree_setAll head (columns.zip row)).bind (fun _ _ h => h) fun _ db db' h => ih h rows

/-! ### Deleting -/

theorem checkRemoval_eq (h : Facing consulted pairs table view view' db db') (both : pairs table id id')
    {references references' : List Reference}
    (matching : List.Forall₂ (fun r r' => r.Matches (consulted r) r' ∧ consulted r .delete) references
      references') :
    db'.checkRemoval view' references' id' = db.checkRemoval view references id := by
  apply Checked.forM_eq_of_forall₂
  refine matching.imp fun r r' isMatch => ?_
  rw [h.twin.read_eq h.one both, isMatch.1.parentField]
  refine congrArg (_ >>= ·) (funext fun value => ?_)
  exact h.alike.checkChildren_eq isMatch.1 isMatch.2

end Database.Facing

/-! ## Statements -/

namespace Database.Alike

/-- A statement that looks at a table first fails on both databases if it is not there. -/
theorem agree_bind_view {α : Type} (h : Alike consulted pairs db db') {f f' : TableView → Change α}
    (next : ∀ view view', Facing consulted pairs table view view' db db' →
      Move.Agree (Facing consulted pairs table view view') ((f view).runFrom db)
        ((f' view').runFrom db')) :
    Move.Agree (Alike consulted pairs) ((do f (← db.view table none) : Change α).runFrom db)
      ((do f' (← db'.view table none) : Change α).runFrom db') := by
  refine Move.agree_bind_of_related (Move.runFrom_lift _ _) (Move.runFrom_lift _ _)
    (h.related_view none) h fun view view' isView isView' _ => ?_
  exact (next view view' ⟨h, isView, isView'⟩).weaken fun _ _ facing => facing.alike

theorem storeless_of_mapM {check : FieldCheck} {tree? : Option Tree} {filter : Option Expr}
    (bound : tree?.mapM (·.bind check) = .ok filter) : ∀ e ∈ filter, e.Storeless := by
  cases tree? with
  | none =>
    cases bound
    exact nofun
  | some tree =>
    obtain ⟨e, isBound, eq⟩ := Checked.bind_eq_ok.1 bound
    cases eq
    rintro _ ⟨⟩
    exact Tree.storeless_bind tree isBound

theorem agree_insert (h : Alike consulted pairs db db') (s : Insert) :
    Move.Agree (Alike consulted pairs) (s.run.runFrom db) (s.run.runFrom db') := by
  refine Move.agree_bind_get ?_
  refine Move.agree_bind_lift (h.schema_eq _) h fun schema _ => ?_
  refine Move.agree_bind_lift rfl h fun columns _ => ?_
  cases s.rows.find? (·.length != columns.length) with
  | some row => exact ⟨rfl, h⟩
  | none =>
    refine h.agree_bind_view fun view view' facing => ?_
    refine Move.agree_forM (List.forall₂_same.2 fun row _ => rfl) ?_ facing
    rintro row _ rfl db db' facing
    exact facing.agree_insertRow columns row

theorem agree_update (h : Alike consulted pairs db db') (s : Update)
    (consults : ∀ r change, (Statement.update s).Consults r change → consulted r change) :
    Move.Agree (Alike consulted pairs) (s.run.runFrom db) (s.run.runFrom db') := by
  refine Move.agree_bind_get ?_
  refine Move.agree_bind_lift (h.schema_eq _) h fun schema _ => ?_
  refine Move.agree_bind_lift rfl h fun columns areColumns => ?_
  refine h.agree_bind_view fun view view' facing => ?_
  rw [facing.twin.fieldCheck_eq]
  refine Move.agree_bind_of_eq (Move.runFrom_optionMapM_lift _ _ _) (Move.runFrom_optionMapM_lift _ _ _)
    rfl facing fun filter isFilter => ?_
  refine Move.agree_bind_of_eq
    (Move.runFrom_mapM_lift (fun a : String × Tree => a.2.bind view.fieldCheck) _ _)
    (Move.runFrom_mapM_lift (fun a : String × Tree => a.2.bind view.fieldCheck) _ _) rfl facing
    fun values areValues => ?_
  have storeless := storeless_of_mapM isFilter
  have names := (Schema.targets_go_eq_ok areColumns).1
  have assigned : ∀ a ∈ (columns.zip values).map fun e => Assignment.mk e.1 e.2,
      a.value.Storeless ∧ a.column.name ∈ s.assignments.map (·.1) := by
    intro a mem
    obtain ⟨e, isPair, rfl⟩ := List.mem_map.1 mem
    obtain ⟨isColumn, isValue⟩ := List.of_mem_zip isPair
    obtain ⟨x, _, bound⟩ := Checked.of_mem_mapM areValues isValue
    rw [← names]
    exact ⟨Tree.storeless_bind x.2 bound, List.mem_map_of_mem isColumn⟩
  have asked : ∀ a ∈ (columns.zip values).map fun e => Assignment.mk e.1 e.2,
      ∀ r, r.hasParent s.table a.column.name = true → consulted r .update := by
    intro a mem r hasParent
    rw [Reference.hasParent, Bool.and_eq_true, beq_iff_eq, beq_iff_eq] at hasParent
    exact consults r .update ⟨rfl, hasParent.1, hasParent.2 ▸ (assigned a mem).2⟩
  have newRows := facing.newRows_eq storeless (fun a mem => (assigned a mem).1) asked
  refine Move.agree_bind_lift newRows facing fun rows _ => ?_
  exact facing.agree_writeRows storeless columns facing.twin.rows.ids rows

theorem agree_delete (h : Alike consulted pairs db db') (s : Delete)
    (consults : ∀ r change, (Statement.delete s).Consults r change → consulted r change) :
    Move.Agree (Alike consulted pairs) (s.run.runFrom db) (s.run.runFrom db') := by
  refine Move.agree_bind_get ?_
  refine h.agree_bind_view fun view view' facing => ?_
  rw [facing.twin.fieldCheck_eq]
  refine Move.agree_bind_of_eq (Move.runFrom_optionMapM_lift _ _ _) (Move.runFrom_optionMapM_lift _ _ _)
    rfl facing fun filter isFilter => ?_
  have matching : List.Forall₂ (fun r r' => r.Matches (consulted r) r' ∧ consulted r .delete)
      (db.references.filter (·.parentTable == s.table))
      (db'.references.filter (·.parentTable == s.table)) := by
    have filtered := h.references_filter (p := (·.parentTable == s.table)) fun isMatch => by
      rw [isMatch.parentTable]
    refine forall₂_imp_of_mem filtered fun r mem r' isMatch => ⟨isMatch, ?_⟩
    exact consults r .delete ⟨rfl, beq_iff_eq.1 (List.mem_filter.1 mem).2⟩
  refine Move.agree_forM facing.twin.rows.ids ?_ facing
  intro id id' both db db' facing
  refine Move.agree_bind_get ?_
  refine Move.agree_bind_lift (facing.twin.accepts_eq facing.one both (storeless_of_mapM isFilter)) facing
    fun accepted _ => ?_
  cases accepted with
  | false => exact ⟨rfl, facing⟩
  | true =>
    refine Move.agree_bind_lift (facing.checkRemoval_eq both matching) facing fun _ _ => ?_
    exact ⟨rfl, facing.updateRows (facing.twin.rows.erase facing.one both)⟩

/-! ### Tables -/

/-- A new table gives out the same ids on both sides. -/
theorem withTable (h : Alike consulted pairs db db') (isFresh : db.tables.find? table = none)
    (fresh : ∀ k, pairs table k k) (schema : Schema) (new : List Reference) :
    Alike consulted pairs (db.withTable table schema new) (db'.withTable table schema new) where
  placed := h.placed.withTable table schema new
  placed' := h.placed'.withTable table schema new
  one := h.one
  absent {name} isAbsent := by
    by_cases same : name = table
    · rw [same] at isAbsent
      cases (SortedMap.find?_insert_self _).symm.trans isAbsent
    · have wasAbsent := (SortedMap.find?_insert_of_ne _ same).symm.trans isAbsent
      exact (SortedMap.find?_insert_of_ne _ same).trans (h.absent wasAbsent)
  tables {name t} found := by
    rcases find?_withTable found with ⟨rfl, rfl⟩ | old
    · refine ⟨_, SortedMap.find?_insert_self _, rfl, ?_⟩
      change RowStore.Paired _ (db.stores.extend.1.rowsAt db.stores.length)
        (db'.stores.extend.1.rowsAt db'.stores.length)
      rw [Stores.rowsAt_extend_new, Stores.rowsAt_extend_new]
      refine ⟨.nil, fun k => ?_⟩
      rw [RowStore.empty, Nat.zero_add]
      exact fresh k
    · obtain ⟨t', found', sameSchema, paired⟩ := h.tables old
      refine ⟨t', find?_withTable_of_old (h.absent isFresh) found', sameSchema, ?_⟩
      change RowStore.Paired _ (db.stores.extend.1.rowsAt t.store) (db'.stores.extend.1.rowsAt t'.store)
      rw [Stores.rowsAt_extend_of_lt (h.placed.inside old),
        Stores.rowsAt_extend_of_lt (h.placed'.inside found')]
      exact paired
  references :=
    List.rel_append h.references (List.forall₂_same.2 fun r _ => Reference.Matches.refl _ r)

theorem withoutTable (h : Alike consulted pairs db db') (table : String) :
    Alike consulted pairs (db.withoutTable table) (db'.withoutTable table) where
  placed := h.placed.withoutTable table
  placed' := h.placed'.withoutTable table
  one := h.one
  absent {name} isAbsent := by
    by_cases same : name = table
    · rw [same]
      exact SortedMap.find?_erase_self
    · have wasAbsent := (SortedMap.find?_erase_of_ne same).symm.trans isAbsent
      exact (SortedMap.find?_erase_of_ne same).trans (h.absent wasAbsent)
  tables found := by
    obtain ⟨differ, old⟩ := find?_withoutTable found
    obtain ⟨t', found', paired⟩ := h.tables old
    exact ⟨t', (SortedMap.find?_erase_of_ne differ).trans found', paired⟩
  references := by
    apply List.rel_filter _ (h.references_filter fun isMatch => by rw [isMatch.childTable])
    intro r r' isMatch
    simp only [isMatch.parentTable]

theorem agree_createTable (h : Alike consulted pairs db db') (s : CreateTable)
    (fresh : db.tables.find? s.table = none → ∀ k, pairs s.table k k) :
    Move.Agree (Alike consulted pairs) (s.run.runFrom db) (s.run.runFrom db') := by
  refine Move.agree_bind_get ?_
  cases has : db.has s.table with
  | true =>
    simp only [addTable?_eq, h.has_eq, has, if_true]
    exact ⟨rfl, h⟩
  | false =>
    have isFresh := has_eq_false.1 has
    simp only [addTable?_eq, h.has_eq, has, Bool.false_eq_true, if_false]
    have resolved := Checked.mapM_eq_of_forall₂ (List.forall₂_same.2 fun fk (_ : fk ∈ s.foreignKeys) =>
      h.resolve_eq fk s.table (Schema.ofColumns s.columns))
    refine Move.agree_bind_of_eq (Move.runFrom_mapM_lift (fun fk : ForeignKey => fk.resolve db _ _) _ _)
      (Move.runFrom_mapM_lift (fun fk : ForeignKey => fk.resolve db' _ _) _ _) resolved h fun new _ => ?_
    rw [foldl_addReference_withTable, foldl_addReference_withTable]
    exact ⟨rfl, h.withTable isFresh (fresh isFresh) _ new⟩

theorem agree_dropTable (h : Alike consulted pairs db db') (s : DropTable)
    (consults : ∀ r change, (Statement.dropTable s).Consults r change → consulted r change) :
    Move.Agree (Alike consulted pairs) (s.run.runFrom db) (s.run.runFrom db') := by
  refine Move.agree_bind_get ?_
  cases has : db.has s.table with
  | false =>
    simp only [removeTable?, h.has_eq, has, Bool.false_eq_true, if_false]
    exact ⟨rfl, h⟩
  | true =>
    simp only [removeTable?, h.has_eq, has, if_true]
    -- Dependent rows are sought in the two databases as they are.
    refine Move.Agree.bind (R := fun s s' => s = db ∧ s' = db') ?_ ?_ ?_
    · refine Move.agree_forM h.references ?_ ⟨rfl, rfl⟩
      rintro r r' isMatch db db' ⟨rfl, rfl⟩
      have blocks : (r'.parentTable == s.table && r'.childTable != s.table && r'.blocks .delete) =
          (r.parentTable == s.table && r.childTable != s.table && r.blocks .delete) := by
        rw [isMatch.parentTable, isMatch.childTable]
        cases asks : r.parentTable == s.table && r.childTable != s.table with
        | false => rfl
        | true =>
          rw [Bool.and_eq_true, beq_iff_eq, bne_iff_ne] at asks
          rw [isMatch.blocks .delete (consults r .delete ⟨rfl, asks⟩)]
      rw [blocks]
      split
      · refine Move.agree_bind_lift (h.hasDependentRow_eq isMatch) ⟨rfl, rfl⟩ fun found _ => ?_
        cases found with
        | true => exact ⟨rfl, rfl, rfl⟩
        | false => exact ⟨rfl, rfl, rfl⟩
      · exact ⟨rfl, rfl, rfl⟩
    · rintro _ _ ⟨rfl, rfl⟩
      exact h
    · rintro _ _ _ ⟨rfl, rfl⟩
      exact ⟨rfl, h.withoutTable s.table⟩

/-! ### Runs -/

/-- What one statement comes to. -/
theorem agree_execute (h : Alike consulted pairs db db') {s : Statement}
    (consults : ∀ r change, s.Consults r change → consulted r change)
    (fresh : ∀ name, db.tables.find? name = none → ∀ k, pairs name k k) :
    Move.Agree (Alike consulted pairs) (db.execute s) (db'.execute s) := by
  cases s with
  | createTable s => exact h.agree_createTable s (fresh s.table)
  | dropTable s => exact h.agree_dropTable s consults
  | insert s => exact h.agree_insert s
  | update s => exact h.agree_update s consults
  | delete s => exact h.agree_delete s consults

/-- A table that is not there can be created with the same ids on both sides. -/
theorem renew (h : Alike consulted pairs db db') : ∃ pairs', Alike consulted pairs' db db' ∧
    ∀ name, db.tables.find? name = none → ∀ k, pairs' name k k := by
  refine ⟨fun name => if db.has name then pairs name else Eq, { h with one := ?_, tables := ?_ }, ?_⟩
  · intro name
    split
    · exact h.one name
    · exact ⟨fun _ _ _ same same' => same.trans same'.symm, fun _ _ _ same same' => same.symm.trans same'⟩
  · intro name t found
    have has : db.has name = true := by
      rw [Database.has, SortedMap.contains, found]
      rfl
    simp only [has, if_true]
    exact h.tables found
  · intro name isAbsent k
    simp only [has_eq_false.2 isAbsent, Bool.false_eq_true, if_false]

end Database.Alike

/-- The outcomes of some statements one after the other, and the database after them. -/
def Database.executeAll (db : Database) : List Statement → List (Checked Unit) × Database
  | [] => ([], db)
  | s :: statements =>
    let (outcome, next) := db.execute s
    let (outcomes, last) := next.executeAll statements
    (outcome :: outcomes, last)

/-- What any number of statements come to. -/
theorem Database.Alike.executeAll (h : Alike consulted pairs db db') (statements : List Statement)
    (consults : ∀ s ∈ statements, ∀ r change, s.Consults r change → consulted r change) :
    (db'.executeAll statements).1 = (db.executeAll statements).1 ∧
      ∃ pairs', Alike consulted pairs' (db.executeAll statements).2 (db'.executeAll statements).2 := by
  induction statements generalizing db db' pairs with
  | nil => exact ⟨rfl, pairs, h⟩
  | cons s statements ih =>
    obtain ⟨renewed, h, fresh⟩ := h.renew
    obtain ⟨outcome, after⟩ := h.agree_execute (consults s List.mem_cons_self) fresh
    obtain ⟨outcomes, last⟩ := ih after fun s mem => consults s (List.mem_cons_of_mem _ mem)
    refine ⟨?_, last⟩
    rw [executeAll, executeAll]
    simp only [outcome, outcomes]

end RelEngine
