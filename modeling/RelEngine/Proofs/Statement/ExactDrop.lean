import RelEngine.Proofs.Database.Contents
import RelEngine.Proofs.Statement.ReferenceChecks

/-!
What a DROP TABLE comes to. It looks for a row of another table that depends on one of the rows that would go, and
it finds one exactly if there is one; otherwise the table goes with all references from and to it, and nothing else
does.

Field names may have dots in them. The names that the search is made with are qualified, and they lead to the two
fields all the same, as long as these have a name at all.
-/
namespace RelEngine

variable {db : Database} {table : String} {r : Reference}

theorem RowStore.mem_contents {s : RowStore} {row : Bytes} : row ∈ s.contents ↔ ∃ id, s.find? id = some row := by
  rw [contents, List.mem_map]
  constructor
  · rintro ⟨⟨id, _⟩, mem, rfl⟩
    exact ⟨id, SortedMap.find?_of_mem mem⟩
  · rintro ⟨id, found⟩
    exact ⟨(id, row), SortedMap.mem_of_find? found, rfl⟩

/-! ## Qualified names -/

namespace TableView

variable {view : TableView} {c : Column}

theorem local?_qualified (plain : FieldName.Plain view.qualifier) (isColumn : c ∈ view.schema.columns)
    (named : c.name ≠ "") : view.local? (view.qualifier ++ "." ++ c.name) = some c.name := by
  have has : view.schema.has c.name = true := Schema.has_iff.2 (List.mem_map_of_mem isColumn)
  rw [local?, FieldName.parse_qualified plain named]
  simp only [beq_self_eq_true, has, Bool.and_true, if_true]

theorem local?_of_other {qualifier field : String} (plain : FieldName.Plain qualifier) (named : field ≠ "")
    (differ : qualifier ≠ view.qualifier) : view.local? (qualifier ++ "." ++ field) = none := by
  rw [local?, FieldName.parse_qualified plain named]
  simp only [beq_eq_false_iff_ne.2 differ, Bool.false_and, Bool.false_eq_true, if_false]

/-- A field of a packed row under its qualified name. -/
theorem readRow_qualified (plain : FieldName.Plain view.qualifier) (isColumn : c ∈ view.schema.columns)
    (named : c.name ≠ "") (row : Bytes) :
    view.readRow row (view.qualifier ++ "." ++ c.name) = Row.get view.schema row c.name := by
  rw [readRow, resolve, local?_qualified plain isColumn named]
  rfl

end TableView

/-- A column is read from every packed row, and the value is one that the column can hold. -/
theorem Row.get_of_column {schema : Schema} {c : Column} (isColumn : c ∈ schema.columns) (row : Bytes) :
    ∃ v, Row.get schema row c.name = .ok v ∧ c.Holds v := by
  obtain ⟨slot, isSlot, rfl⟩ := Schema.slot?_of_mem isColumn
  exact ⟨_, read_eq isSlot, holds_read row slot⟩

/-- A pair of rows is connected if the child's value equals the parent's. Columns of one kind are compared without
fail. -/
theorem Reference.connects_eq {t u : Table} {child parent : Column} (isChild : child ∈ t.schema.columns)
    (isParent : parent ∈ u.schema.columns) (childName : child.name = r.childField)
    (parentName : parent.name = r.parentField) (sameKind : child.type.isNumeric = parent.type.isNumeric)
    (named : child.name ≠ "") (named' : parent.name ≠ "") (p c : Bytes) :
    ∃ v w, Row.get t.schema c r.childField = .ok v ∧ Row.get u.schema p r.parentField = .ok w ∧
      ∃ found, r.connects ⟨"master", u.schema, u.store⟩ ⟨"slave", t.schema, t.store⟩ p c = .ok found ∧
        (found = true ↔ Value.Equals v w) := by
  have plain : FieldName.Plain "master" := by decide
  have plain' : FieldName.Plain "slave" := by decide
  obtain ⟨v, isLeft, left⟩ := Row.get_of_column isChild c
  obtain ⟨w, isRight, right⟩ := Row.get_of_column isParent p
  obtain ⟨result, compared⟩ := Column.relate_of_holds sameKind left right .eq
  let master : TableView := ⟨"master", u.schema, u.store⟩
  let slave : TableView := ⟨"slave", t.schema, t.store⟩
  have notMaster : master.has ("slave." ++ child.name) = false := by
    have isNone : master.local? ("slave" ++ "." ++ child.name) = none :=
      TableView.local?_of_other plain' named (by change "slave" ≠ "master"; decide)
    exact congrArg Option.isSome isNone
  have isMaster : master.has ("master." ++ parent.name) = true := by
    have isSome : master.local? (master.qualifier ++ "." ++ parent.name) = some parent.name :=
      TableView.local?_qualified plain isParent named'
    exact congrArg Option.isSome isSome
  have slaveValue : slave.readRow c ("slave." ++ child.name) = .ok v := by
    have own : slave.readRow c (slave.qualifier ++ "." ++ child.name) = Row.get t.schema c child.name :=
      TableView.readRow_qualified plain' isChild named c
    exact own.trans (childName ▸ isLeft)
  have masterValue : master.readRow p ("master." ++ parent.name) = .ok w := by
    have own : master.readRow p (master.qualifier ++ "." ++ parent.name) = Row.get u.schema p parent.name :=
      TableView.readRow_qualified plain isParent named' p
    exact own.trans (parentName ▸ isRight)
  have connected : r.connects master slave p c = .ok result.isTrue := by
    rw [connects, ← childName, ← parentName]
    simp only [Record.pair, notMaster, isMaster, slaveValue, masterValue, if_true, Bool.false_eq_true, if_false,
      Checked.ok_bind, compared]
    rfl
  rw [← childName, ← parentName]
  exact ⟨v, w, isLeft, isRight, result.isTrue, connected, Value.isTrue_relate compared⟩

/-! ## Rows that others depend on -/

namespace Database

/-- Under the id the table has a row that holds this value in the field of exactly this name. -/
def HasValue (db : Database) (table : String) (id : RowId) (field : String) (v : Value) : Prop :=
  ∃ t row, db.tables.find? table = some t ∧ (db.stores.rowsAt t.store).find? id = some row ∧
    Row.get t.schema row field = .ok v

/-- A row of the child table holds a value that equals one of the parent table. -/
def Connects (db : Database) (r : Reference) : Prop :=
  ∃ child v parent w, db.HasValue r.childTable child r.childField v ∧
    db.HasValue r.parentTable parent r.parentField w ∧ Value.Equals v w

/-- A row of another table depends on one of this table, by a reference that does not let it go. -/
structure Depends (db : Database) (table : String) (r : Reference) : Prop where
  mem : r ∈ db.references
  isParent : r.parentTable = table
  isOther : r.childTable ≠ table
  noAction : r.onDelete = .noAction
  connects : db.Connects r

/-- The search for dependent rows comes to an answer, and it is the right one. -/
theorem hasDependentRow_iff (links : db.Links r)
    (named : ∀ {name t}, db.tables.find? name = some t → ∀ c ∈ t.schema.columns, c.name ≠ "") :
    ∃ found, db.hasDependentRow r = .ok found ∧ (found = true ↔ db.Connects r) := by
  obtain ⟨t, u, isTable, isTable', child, isChild, childName, parent, isParent, parentName, sameKind⟩ := links
  have pair := Reference.connects_eq isChild isParent childName parentName sameKind (named isTable child isChild)
    (named isTable' parent isParent)
  have isMaster : db.view r.parentTable (some "master") = .ok ⟨"master", u.schema, u.store⟩ :=
    view_eq_ok.2 ⟨u, isTable', rfl⟩
  have isSlave : db.view r.childTable (some "slave") = .ok ⟨"slave", t.schema, t.store⟩ :=
    view_eq_ok.2 ⟨t, isTable, rfl⟩
  rw [hasDependentRow_eq, isMaster, Checked.ok_bind, isSlave, Checked.ok_bind]
  obtain ⟨found, search⟩ := Checked.anyM_of_forall
    (l := (db.stores.rowsAt u.store).contents.flatMap fun p =>
      (db.stores.rowsAt t.store).contents.map fun c => (p, c))
    (p := fun e => r.connects ⟨"master", u.schema, u.store⟩ ⟨"slave", t.schema, t.store⟩ e.1 e.2)
    fun e _ => by
      obtain ⟨v, w, _, _, found, asked, _⟩ := pair e.1 e.2
      exact ⟨found, asked⟩
  refine ⟨found, search, ?_⟩
  cases found with
  | true =>
    obtain ⟨⟨p, c⟩, mem, asked⟩ := Checked.anyM_eq_true search
    obtain ⟨_, isP, mem⟩ := List.mem_flatMap.1 mem
    obtain ⟨_, isC, eq⟩ := List.mem_map.1 mem
    cases eq
    obtain ⟨parentId, parentFound⟩ := RowStore.mem_contents.1 isP
    obtain ⟨childId, childFound⟩ := RowStore.mem_contents.1 isC
    obtain ⟨v, w, isLeft, isRight, _, asked', equals⟩ := pair p c
    cases asked.symm.trans asked'
    exact iff_of_true rfl ⟨childId, v, parentId, w, ⟨t, c, isTable, childFound, isLeft⟩,
      ⟨u, p, isTable', parentFound, isRight⟩, equals.1 rfl⟩
  | false =>
    refine iff_of_false nofun ?_
    rintro ⟨childId, v, parentId, w, ⟨t', c, isTable₁, childFound, isLeft⟩,
      ⟨u', p, isTable₂, parentFound, isRight⟩, equals⟩
    cases isTable.symm.trans isTable₁
    cases isTable'.symm.trans isTable₂
    have mem : (p, c) ∈ (db.stores.rowsAt u.store).contents.flatMap fun p =>
        (db.stores.rowsAt t.store).contents.map fun c => (p, c) :=
      List.mem_flatMap.2 ⟨p, RowStore.mem_contents.2 ⟨parentId, parentFound⟩,
        List.mem_map.2 ⟨c, RowStore.mem_contents.2 ⟨childId, childFound⟩, rfl⟩⟩
    obtain ⟨v', w', isLeft', isRight', _, asked, equals'⟩ := pair p c
    cases isLeft.symm.trans isLeft'
    cases isRight.symm.trans isRight'
    cases (Checked.anyM_eq_false search _ mem).symm.trans asked
    exact nomatch equals'.2 equals

end Database

/-- Each reference is asked about, and the drop is refused for the first one that a row depends by. -/
theorem DropTable.check_cases (s : DropTable) (mem : r ∈ db.references) (links : db.Links r)
    (named : ∀ {name t}, db.tables.find? name = some t → ∀ c ∈ t.schema.columns, c.name ≠ "") :
    s.check db r = .ok () ∧ ¬ db.Depends s.table r ∨
      s.check db r = .error (.dependentRows s.table) ∧ db.Depends s.table r := by
  obtain ⟨found, search, exact⟩ := db.hasDependentRow_iff links named
  rw [check]
  split
  · next asked =>
    simp only [Bool.and_eq_true, beq_iff_eq, bne_iff_ne] at asked
    obtain ⟨⟨isParent, isOther⟩, blocks⟩ := asked
    rw [search, Checked.ok_bind]
    cases found with
    | true => exact .inr ⟨rfl, mem, isParent, isOther, of_decide_eq_true blocks, exact.1 rfl⟩
    | false =>
      refine .inl ⟨rfl, fun depends => ?_⟩
      cases exact.2 depends.connects
  · next unasked =>
    refine .inl ⟨rfl, fun depends => unasked ?_⟩
    simp only [Bool.and_eq_true, beq_iff_eq, bne_iff_ne]
    exact ⟨⟨depends.isParent, depends.isOther⟩, decide_eq_true depends.noAction⟩

namespace Database

/-- The three ways in which a DROP TABLE can end. -/
theorem Reached.drop_cases (reached : db.Reached fun _ s => s.Declares fun c => c.name ≠ "") (table : String) :
    db.execute (.dropTable ⟨table⟩) = (.ok (), db.withoutTable table) ∧ db.has table = true ∧
        (∀ r, ¬ db.Depends table r) ∨
      db.execute (.dropTable ⟨table⟩) = (.error (.unknownTable table), db) ∧ db.has table = false ∨
      db.execute (.dropTable ⟨table⟩) = (.error (.dependentRows table), db) ∧ ∃ r, db.Depends table r := by
  let s : DropTable := ⟨table⟩
  have cases : ∀ r ∈ db.references, s.check db r = .ok () ∧ ¬ db.Depends table r ∨
      s.check db r = .error (.dependentRows table) ∧ db.Depends table r :=
    fun r mem => s.check_cases mem (reached.links r mem) reached.columns
  have run : db.execute (.dropTable s) = _ := s.runFrom_run db
  rw [run]
  cases has : db.has table with
  | false => exact .inr (.inl ⟨rfl, rfl⟩)
  | true =>
    rw [if_pos rfl]
    cases checked : db.references.forM (s.check db) with
    | ok _ =>
      refine .inl ⟨rfl, rfl, fun r depends => ?_⟩
      rcases cases r depends.mem with ⟨-, free⟩ | ⟨refused, -⟩
      · exact free depends
      · cases (Checked.forM_eq_ok checked r depends.mem).symm.trans refused
    | error e =>
      obtain ⟨r, mem, bad⟩ := Checked.forM_eq_error checked
      rcases cases r mem with ⟨passed, -⟩ | ⟨refused, depends⟩
      · cases bad.symm.trans passed
      · cases bad.symm.trans refused
        exact .inr (.inr ⟨rfl, r, depends⟩)

/-- A DROP TABLE succeeds exactly if there is the table and no row of another table depends on one of its rows. Then
the table is gone, and so are the references from and to it; the other references stay in their order, and the other
tables with their rows as they were. If it fails, it fails for one of the two reasons and has changed nothing. -/
theorem Reached.drop_exact (reached : db.Reached fun _ s => s.Declares fun c => c.name ≠ "") (table : String) :
    let result := db.execute (.dropTable ⟨table⟩)
    (result.1 = .ok () ↔ db.has table = true ∧ ∀ r, ¬ db.Depends table r) ∧
    (result.1 = .ok () →
      result.2.has table = false ∧
      result.2.references = db.references.filter (fun r => r.childTable ≠ table ∧ r.parentTable ≠ table) ∧
      ∀ other ≠ table, result.2.tables.find? other = db.tables.find? other ∧
        result.2.rows other = db.rows other) ∧
    ∀ e, result.1 = .error e → result.2 = db ∧
      (e = .unknownTable table ∧ db.has table = false ∨
        e = .dependentRows table ∧ ∃ r, db.Depends table r) := by
  intro result
  rcases reached.drop_cases table with ⟨run, has, free⟩ | ⟨run, hasNot⟩ | ⟨run, depends⟩
  · rw [show result = _ from run]
    refine ⟨iff_of_true rfl ⟨has, free⟩, fun _ => ⟨?_, ?_, fun other differ => ?_⟩, fun e eq => ?_⟩
    · exact congrArg Option.isSome SortedMap.find?_erase_self
    · simp only [withoutTable, List.filter_filter]
      refine List.filter_congr fun r _ => ?_
      rw [Bool.eq_iff_iff, Bool.and_eq_true, bne_iff_ne, bne_iff_ne, decide_eq_true_eq, and_comm]
    · have same : (db.withoutTable table).tables.find? other = db.tables.find? other :=
        SortedMap.find?_erase_of_ne differ
      refine ⟨same, ?_⟩
      rw [rows, rows, Database.table, Database.table, same]
      rfl
    · cases eq
  · rw [show result = _ from run]
    refine ⟨iff_of_false (fun eq => ?_) fun possible => ?_, fun eq => ?_, fun e eq => ?_⟩
    · cases eq
    · cases hasNot.symm.trans possible.1
    · cases eq
    · cases eq
      exact ⟨rfl, .inl ⟨rfl, hasNot⟩⟩
  · rw [show result = _ from run]
    refine ⟨iff_of_false (fun eq => ?_) fun possible => ?_, fun eq => ?_, fun e eq => ?_⟩
    · cases eq
    · obtain ⟨r, isDependent⟩ := depends
      exact possible.2 r isDependent
    · cases eq
    · cases eq
      exact ⟨rfl, .inr ⟨rfl, depends⟩⟩

end Database

/-- Artists, of whom one follows another, and a song by one of them. -/
def songsByArtists : List Statement :=
  [.createTable ⟨"artist", [.plain "id" .int 0, .plain "follows.id" .int 0],
      [⟨"follows.id", "artist", "id", .noAction, .noAction⟩]⟩,
    .insert ⟨"artist", some ["id"], [[.const (some (.int 1))], [.const (some (.int 2))]]⟩,
    .createTable ⟨"song", [.plain "by" .int 0], [⟨"by", "artist", "id", .noAction, .noAction⟩]⟩,
    .insert ⟨"song", none, [[.const (some (.int 2))]]⟩]

/-- The artists stay as long as there is a song by one of them; the songs can go. -/
theorem Database.drop_exact_songs :
    let db := afterAll songsByArtists
    (db.execute (.dropTable ⟨"artist"⟩)).2 = db ∧ (∃ r, db.Depends "artist" r) ∧
      (∀ r, ¬ db.Depends "song" r) ∧ (db.execute (.dropTable ⟨"song"⟩)).2.has "song" = false ∧
      (db.execute (.dropTable ⟨"song"⟩)).2.rows "artist" = db.rows "artist" := by
  intro db
  have named : ∀ s ∈ songsByArtists, s.Declares fun c => c.name ≠ "" := by decide +kernel
  have reached : db.Reached fun _ s => s.Declares fun c => c.name ≠ "" :=
    reached_afterAll fun s mem _ => named s mem
  have refused : (db.execute (.dropTable ⟨"artist"⟩)).1 = .error (.dependentRows "artist") := by decide +kernel
  have dropped : (db.execute (.dropTable ⟨"song"⟩)).1 = .ok () := by decide +kernel
  obtain ⟨unchanged, cause⟩ := (reached.drop_exact "artist").2.2 _ refused
  obtain ⟨decides, effect, -⟩ := reached.drop_exact "song"
  obtain ⟨gone, -, others⟩ := effect dropped
  refine ⟨unchanged, ?_, (decides.1 dropped).2, gone, (others "artist" (by decide)).2⟩
  rcases cause with ⟨⟨⟩, -⟩ | ⟨-, depends⟩
  exact depends

end RelEngine
