import RelEngine.Proofs.Statement.Insert
import RelEngine.Statement.CreateTable
import RelEngine.Statement.DropTable

/-!
CREATE TABLE and DROP TABLE leave the rows of all other tables alone. A new table has no rows yet, so its
references are satisfied, and a table that goes takes the references from and to it along.
-/
namespace RelEngine

variable {db db' : Database}

/-! ## Creating a table -/

theorem Schema.mem_ofColumns {columns : List Column} {c : Column}
    (mem : c ∈ (ofColumns columns).columns) : c ∈ columns := by
  have folded : ∀ (columns : List Column) (start : Schema),
      c ∈ (columns.foldl add start).columns → c ∈ start.columns ∨ c ∈ columns := by
    intro columns
    induction columns with
    | nil => exact fun _ mem => .inl mem
    | cons d columns ih =>
      intro start mem
      rcases ih _ mem with mem | mem
      · by_cases taken : d.name ∈ start.names
        · rw [add_of_mem taken] at mem
          exact .inl mem
        · rw [columns_add taken, List.mem_append, List.mem_singleton] at mem
          rcases mem with mem | rfl
          · exact .inl mem
          · exact .inr List.mem_cons_self
      · exact .inr (List.mem_cons_of_mem _ mem)
  rcases folded columns empty mem with mem | mem
  · exact nomatch mem
  · exact mem

/-- Both fields of a reference are columns of the tables that it names. Either both hold numbers or none. -/
theorem ForeignKey.resolve_eq_ok {fk : ForeignKey} {table : String} {schema : Schema} {r : Reference}
    (h : fk.resolve db table schema = .ok r) :
    r.childTable = table ∧ ∃ parentSchema, (r.parentTable = table ∧ parentSchema = schema ∨
        db.schema r.parentTable = .ok parentSchema) ∧
      ∃ child ∈ schema.columns, child.name = r.childField ∧
        ∃ parent ∈ parentSchema.columns, parent.name = r.parentField ∧
          child.type.isNumeric = parent.type.isNumeric := by
  obtain ⟨child, isChild, h⟩ := Checked.bind_eq_ok.1 h
  have rest : ∀ parentSchema : Schema, (do
      let parent ← parentSchema.column fk.parentField
      if child.type.isNumeric != parent.type.isNumeric then
        throw (.typeMismatch parent.type child.type)
      return ⟨table, fk.field, fk.parentTable, fk.parentField, fk.onDelete, fk.onUpdate⟩) = Except.ok r →
      (fk.parentTable = table ∧ parentSchema = schema ∨
        db.schema fk.parentTable = .ok parentSchema) →
      r.childTable = table ∧ ∃ parentSchema, (r.parentTable = table ∧ parentSchema = schema ∨
          db.schema r.parentTable = .ok parentSchema) ∧
        ∃ child ∈ schema.columns, child.name = r.childField ∧
          ∃ parent ∈ parentSchema.columns, parent.name = r.parentField ∧
            child.type.isNumeric = parent.type.isNumeric := by
    intro parentSchema h isSchema
    obtain ⟨parent, isParent, h⟩ := Checked.bind_eq_ok.1 h
    split at h
    · exact nomatch h
    · next sameKind =>
      cases h
      obtain ⟨childMem, childName⟩ := Schema.column_eq_ok isChild
      obtain ⟨parentMem, parentName⟩ := Schema.column_eq_ok isParent
      rw [Bool.not_eq_true, bne_eq_false_iff_eq] at sameKind
      exact ⟨rfl, parentSchema, isSchema, child, childMem, childName, parent, parentMem, parentName, sameKind⟩
  simp only at h
  split at h
  · next own => exact rest schema h (.inl ⟨eq_of_beq own, rfl⟩)
  · obtain ⟨parentSchema, isSchema, h⟩ := Checked.bind_eq_ok.1 h
    exact rest parentSchema h (.inr isSchema)

namespace Database

/-- The database with an empty table, and with more references. -/
def withTable (db : Database) (name : String) (schema : Schema) (new : List Reference) : Database :=
  ⟨db.stores.extend.1, db.tables.insert name ⟨schema, db.stores.length⟩, db.references ++ new⟩

theorem has_eq_false {name : String} : db.has name = false ↔ db.tables.find? name = none := by
  rw [Database.has, SortedMap.contains, Option.isSome_eq_false_iff, Option.isNone_iff_eq_none]

theorem addTable?_eq {name : String} {schema : Schema} :
    db.addTable? name schema = if db.has name then none else some (db.withTable name schema []) := by
  rw [addTable?, withTable, List.append_nil]
  rfl

theorem addTable?_eq_some {name : String} {schema : Schema} {larger : Database}
    (h : db.addTable? name schema = some larger) :
    db.tables.find? name = none ∧ larger = db.withTable name schema [] := by
  rw [addTable?_eq] at h
  split at h
  · exact nomatch h
  · next fresh =>
    cases h
    exact ⟨has_eq_false.1 (Bool.not_eq_true _ ▸ fresh), rfl⟩

theorem foldl_addReference (new : List Reference) (db : Database) :
    new.foldl addReference db = { db with references := db.references ++ new } := by
  induction new generalizing db with
  | nil =>
    rw [List.append_nil]
    rfl
  | cons r new ih =>
    rw [List.foldl_cons, ih, addReference, List.append_assoc]
    rfl

theorem foldl_addReference_withTable {name : String} {schema : Schema} (new : List Reference) :
    new.foldl addReference (db.withTable name schema []) = db.withTable name schema new := by
  rw [foldl_addReference, withTable, List.append_nil]
  rfl

section

variable {name : String} {schema : Schema} {new : List Reference}

/-- A new table has no rows, and no table had its name. -/
theorem reads_withTable (wf : db.WellFormed) (fresh : db.tables.find? name = none) {table field : String}
    {id : RowId} {v : Value} :
    (db.withTable name schema new).Reads table id field v ↔ db.Reads table id field v := by
  by_cases same : table = name
  · rw [same]
    constructor
    · rintro ⟨view, isView, mem, _⟩
      obtain ⟨t, isTable, rfl⟩ := view_eq_ok.1 isView
      cases (SortedMap.find?_insert_self _).symm.trans isTable
      rw [TableView.rows] at mem
      change id ∈ ((Stores.extend db.stores).1.rowsAt db.stores.length).ids at mem
      rw [Stores.rowsAt_extend_new] at mem
      cases mem
    · rintro ⟨view, isView, _⟩
      obtain ⟨t, isTable, _⟩ := view_eq_ok.1 isView
      cases fresh.symm.trans isTable
  · exact reads_congr (SortedMap.find?_insert_of_ne _ same) fun t isTable =>
      Stores.rowsAt_extend_of_lt (wf.inside isTable)

theorem find?_withTable {other : String} {t : Table}
    (found : (db.withTable name schema new).tables.find? other = some t) :
    other = name ∧ t = ⟨schema, db.stores.length⟩ ∨ db.tables.find? other = some t := by
  by_cases same : other = name
  · rw [same] at found
    exact .inl ⟨same, (Option.some.inj ((SortedMap.find?_insert_self _).symm.trans found)).symm⟩
  · exact .inr ((SortedMap.find?_insert_of_ne _ same).symm.trans found)

/-- The tables that were there are still there. -/
theorem find?_withTable_of_old (fresh : db.tables.find? name = none) {other : String} {t : Table}
    (found : db.tables.find? other = some t) :
    (db.withTable name schema new).tables.find? other = some t := by
  have differ : other ≠ name := by
    rintro rfl
    cases found.symm.trans fresh
  exact (SortedMap.find?_insert_of_ne _ differ).trans found

section Stores

variable {other other' : String} {t t' : Table}
  (inside : ∀ {name t}, db.tables.find? name = some t → t.store < db.stores.length)
include inside

/-- A new table keeps its rows in a new place. -/
theorem inside_withTable (found : (db.withTable name schema new).tables.find? other = some t) :
    t.store < (db.withTable name schema new).stores.length := by
  change _ < db.stores.extend.1.length
  rw [Stores.length_extend]
  rcases find?_withTable found with ⟨rfl, rfl⟩ | old
  · exact Nat.lt_succ_self _
  · exact Nat.lt_succ_of_lt (inside old)

theorem apart_withTable
    (apart : ∀ {a b t u}, db.tables.find? a = some t → db.tables.find? b = some u → t.store = u.store → a = b)
    (found : (db.withTable name schema new).tables.find? other = some t)
    (found' : (db.withTable name schema new).tables.find? other' = some t')
    (same : t.store = t'.store) : other = other' := by
  rcases find?_withTable found with ⟨rfl, rfl⟩ | old
  · rcases find?_withTable found' with ⟨rfl, rfl⟩ | old'
    · rfl
    · exact absurd same (Nat.ne_of_gt (inside old'))
  · rcases find?_withTable found' with ⟨rfl, rfl⟩ | old'
    · exact absurd same (Nat.ne_of_lt (inside old))
    · exact apart old old' same

end Stores

theorem WellFormed.withTable (wf : db.WellFormed) (regular : ∀ c ∈ schema.columns, c.Regular)
    (bare : ∀ r ∈ new, FieldName.Bare r.childField ∧ FieldName.Bare r.parentField) :
    (db.withTable name schema new).WellFormed where
  inside := inside_withTable wf.inside
  apart := apart_withTable wf.inside wf.apart
  regular found := by
    rcases find?_withTable found with ⟨rfl, rfl⟩ | old
    · exact regular
    · exact wf.regular old
  whole {other t id row} found isRow := by
    change (db.stores.extend.1.rowsAt t.store).find? id = some row at isRow
    rcases find?_withTable found with ⟨rfl, rfl⟩ | old
    · rw [Stores.rowsAt_extend_new] at isRow
      exact nomatch isRow
    · rw [Stores.rowsAt_extend_of_lt (wf.inside old)] at isRow
      exact wf.whole old isRow
  references r mem := by
    rcases List.mem_append.1 mem with mem | mem
    · exact wf.references r mem
    · exact bare r mem

end

end Database

/-- A CREATE TABLE fails before anything is changed, or it adds an empty table and all its references. -/
theorem CreateTable.run_cases (db : Database) (s : CreateTable) :
    (∃ e, s.run.runFrom db = (.error e, db)) ∨ ∃ new, db.tables.find? s.table = none ∧
      s.foreignKeys.mapM (·.resolve db s.table (Schema.ofColumns s.columns)) = .ok new ∧
      s.run.runFrom db = (.ok (), db.withTable s.table (Schema.ofColumns s.columns) new) := by
  let P (result : Checked Unit × Database) : Prop := (∃ e, result = (.error e, db)) ∨
    ∃ new, db.tables.find? s.table = none ∧
      s.foreignKeys.mapM (·.resolve db s.table (Schema.ofColumns s.columns)) = .ok new ∧
      result = (.ok (), db.withTable s.table (Schema.ofColumns s.columns) new)
  change P (s.run.runFrom db)
  have failed : ∀ e, P (.error e, db) := fun e => .inl ⟨e, rfl⟩
  refine Move.bind_result (Move.runFrom_get db) (fun e _ => failed e) fun _ eq => ?_
  cases eq
  simp only
  split
  · next larger isLarger =>
    obtain ⟨fresh, rfl⟩ := Database.addTable?_eq_some isLarger
    refine Move.bind_result
      (Move.runFrom_mapM_lift (fun fk : ForeignKey => fk.resolve db s.table _) _ _)
      (fun e _ => failed e) fun new isNew => ?_
    exact .inr ⟨new, fresh, isNew, by rw [Move.runFrom_set, Database.foldl_addReference_withTable]⟩
  · exact failed _

/-- A CREATE TABLE keeps references satisfied, and those that it adds are. -/
theorem CreateTable.preserves (wf : db.WellFormed) (s : CreateTable)
    (regular : ∀ c ∈ s.columns, c.Regular) :
    db.Preserves (fun _ => True) (s.run.runFrom db).2 := by
  rcases s.run_cases db with ⟨e, failed⟩ | ⟨new, fresh, isNew, done⟩
  · rw [failed]
    exact .refl wf
  · rw [done]
    have regular' : ∀ c ∈ (Schema.ofColumns s.columns).columns, c.Regular := fun c mem =>
      regular c (Schema.mem_ofColumns mem)
    have bare : ∀ r ∈ new, FieldName.Bare r.childField ∧ FieldName.Bare r.parentField := by
      intro r mem
      obtain ⟨fk, _, isReference⟩ := Checked.of_mem_mapM isNew mem
      obtain ⟨-, parentSchema, isSchema, child, isChild, childName, parent, isParent, parentName, -⟩ :=
        ForeignKey.resolve_eq_ok isReference
      rw [← childName, ← parentName]
      refine ⟨(regular' child isChild).bare, ?_⟩
      rcases isSchema with ⟨_, rfl⟩ | isSchema
      · exact (regular' parent isParent).bare
      · obtain ⟨t, isTable, eq⟩ := Checked.bind_eq_ok.1 isSchema
        cases eq
        exact (wf.regular (Database.table_eq_ok.1 isTable) parent isParent).bare
    refine ⟨wf.withTable regular' bare, fun r mem _ before => ?_⟩
    rcases List.mem_append.1 mem with mem | mem
    · exact (Database.satisfied_congr (fun _ _ => Database.reads_withTable wf fresh)
        fun _ _ => Database.reads_withTable wf fresh).2 (before mem)
    · obtain ⟨fk, _, isReference⟩ := Checked.of_mem_mapM isNew mem
      have isOwn := (ForeignKey.resolve_eq_ok isReference).1
      intro id v isChild _
      rw [isOwn, Database.reads_withTable wf fresh] at isChild
      obtain ⟨view, isView, _⟩ := isChild
      obtain ⟨t, isTable, _⟩ := Database.view_eq_ok.1 isView
      exact nomatch fresh.symm.trans isTable

/-! ## Dropping a table -/

namespace Database

variable {name : String}

/-- The database without a table and the references from and to it. -/
def withoutTable (db : Database) (name : String) : Database where
  stores := db.stores
  tables := db.tables.erase name
  references := (db.references.filter (·.childTable != name)).filter (·.parentTable != name)

theorem find?_withoutTable {other : String} {t : Table}
    (found : (db.withoutTable name).tables.find? other = some t) :
    other ≠ name ∧ db.tables.find? other = some t := by
  by_cases same : other = name
  · rw [same] at found
    exact nomatch SortedMap.find?_erase_self.symm.trans found
  · exact ⟨same, (SortedMap.find?_erase_of_ne same).symm.trans found⟩

theorem reads_withoutTable {table field : String} {id : RowId} {v : Value} (differ : table ≠ name) :
    (db.withoutTable name).Reads table id field v ↔ db.Reads table id field v :=
  reads_congr (SortedMap.find?_erase_of_ne differ) fun _ _ => rfl

theorem mem_references_withoutTable {r : Reference} (mem : r ∈ (db.withoutTable name).references) :
    r ∈ db.references ∧ r.childTable ≠ name ∧ r.parentTable ≠ name := by
  obtain ⟨mem, parent⟩ := List.mem_filter.1 mem
  obtain ⟨mem, child⟩ := List.mem_filter.1 mem
  exact ⟨mem, bne_iff_ne.1 child, bne_iff_ne.1 parent⟩

theorem WellFormed.withoutTable (wf : db.WellFormed) : (db.withoutTable name).WellFormed where
  inside found := wf.inside (find?_withoutTable found).2
  apart found found' same := wf.apart (find?_withoutTable found).2 (find?_withoutTable found').2 same
  regular found := wf.regular (find?_withoutTable found).2
  whole found isRow := wf.whole (find?_withoutTable found).2 isRow
  references r mem := wf.references r (mem_references_withoutTable mem).1

end Database

/-- Refuses to drop the table if the reference does not let its rows go and there is a dependent one. -/
def DropTable.check (s : DropTable) (db : Database) (r : Reference) : Checked Unit := do
  if r.parentTable == s.table && r.childTable != s.table && r.blocks .delete then
    if ← db.hasDependentRow r then throw (.dependentRows s.table)

/-- The rows are looked at, and nothing is changed until all of them were. -/
theorem DropTable.runFrom_run (db : Database) (s : DropTable) :
    s.run.runFrom db =
      if db.has s.table then
        match db.references.forM (s.check db) with
        | .ok _ => (.ok (), db.withoutTable s.table)
        | .error e => (.error e, db)
      else (.error (.unknownTable s.table), db) := by
  rw [run, Move.runFrom_bind, Move.runFrom_get]
  cases has : db.has s.table with
  | false =>
    simp only [Database.removeTable?, has]
    rfl
  | true =>
    have checks : ∀ r ∈ db.references, Move.runFrom (do
        if r.parentTable == s.table && r.childTable != s.table && r.blocks .delete then
          if ← db.hasDependentRow r then throw (.dependentRows s.table)) db = (s.check db r, db) := by
      intro r _
      rw [check]
      split
      · rw [Move.runFrom_bind, Move.runFrom_lift]
        cases db.hasDependentRow r with
        | error e => rfl
        | ok found =>
          cases found with
          | true => rfl
          | false => rfl
      · rfl
    simp only [Database.removeTable?, has, if_true]
    rw [Move.runFrom_bind, Move.runFrom_forM_of checks]
    cases db.references.forM (s.check db) with
    | error e => rfl
    | ok _ => rfl

theorem DropTable.run_cases (db : Database) (s : DropTable) :
    (∃ e, s.run.runFrom db = (.error e, db)) ∨
      s.run.runFrom db = (.ok (), db.withoutTable s.table) := by
  rw [runFrom_run]
  split
  · split
    · exact .inr rfl
    · exact .inl ⟨_, rfl⟩
  · exact .inl ⟨_, rfl⟩

/-- A DROP TABLE keeps the references that it leaves satisfied. -/
theorem DropTable.preserves (wf : db.WellFormed) (s : DropTable) :
    db.Preserves (fun _ => True) (s.run.runFrom db).2 := by
  rcases s.run_cases db with ⟨e, failed⟩ | done
  · rw [failed]
    exact .refl wf
  · rw [done]
    refine ⟨wf.withoutTable, fun r mem _ before => ?_⟩
    obtain ⟨mem, child, parent⟩ := Database.mem_references_withoutTable mem
    exact (Database.satisfied_congr (fun _ _ => Database.reads_withoutTable child)
      fun _ _ => Database.reads_withoutTable parent).2 (before mem)

end RelEngine
