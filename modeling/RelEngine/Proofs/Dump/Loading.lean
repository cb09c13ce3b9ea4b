import RelEngine.Proofs.Dump.Records
import RelEngine.Proofs.Statement.Steps

/-!
What loading the files of a dump comes to. Schemas and references are always read as they were written; the
rows of a table are what stands in its file, which is another one's if a table has the name of one of the
two files that every dump has.
-/
namespace RelEngine

open Dump (tablePart TablePart loadRows readTable readReference)

variable {fits : String → Bool} {db db' : Database} {files : Files} {stores : Stores} {name : String}

/-! ## The files of a dump -/

theorem Files.ofTable?_eq_some {file : String} (h : ofTable? name = some file) :
    NoZero name ∧ file = name ++ ".dat" := by
  simp only [ofTable?] at h
  split at h
  · cases h
  · next usable =>
    refine ⟨fun mem => usable ?_, (Option.some.inj h).symm⟩
    have isZero : name.toList.any (fun c => c == '/' || c == '\\' || c == '\x00') = true :=
      List.any_eq_true.2 ⟨_, mem, rfl⟩
    rw [isZero, Bool.or_true, Bool.true_or]

theorem Files.checkName_eq_ok : checkName fits name = .ok () ↔ fits name = true := by
  unfold checkName
  split
  · next isShort => exact ⟨fun _ => isShort, fun _ => rfl⟩
  · next isLong => exact ⟨nofun, fun isShort => absurd isShort isLong⟩

theorem Dump.tablePart_eq_ok {t : Table} {part : TablePart} (h : tablePart fits stores (name, t) = .ok part) :
    Files.ofTable? name = some part.file ∧ fits part.file = true ∧
      Dump.table name t.schema = .ok part.schema ∧ ∃ rows,
        (stores.rowsAt t.store).rows.entries.mapM Dump.row = .ok rows ∧ part.rows = rows.flatten := by
  unfold tablePart at h
  simp only at h
  split at h
  · next file isFile =>
    obtain ⟨schema, isSchema, h⟩ := Checked.bind_eq_ok.1 h
    obtain ⟨rows, isRows, h⟩ := Checked.bind_eq_ok.1 h
    obtain ⟨⟨⟩, isName, eq⟩ := Checked.bind_eq_ok.1 h
    cases eq
    exact ⟨isFile, Files.checkName_eq_ok.1 isName, isSchema, rows, isRows, rfl⟩
  · cases h

namespace Database

/-- What a dump consists of: a part for each table, and the two files that are written last. -/
structure Dumped (db : Database) (fits : String → Bool) (files : Files) (parts : List TablePart) : Prop where
  each : List.Forall₂ (fun e part => tablePart fits db.stores e = .ok part) db.tables.entries parts
  schemas : files.content Files.schemas = .ok (parts.map (·.schema)).flatten
  references : files.content Files.references = .ok (db.references.map Dump.reference).flatten
  rows : ∀ part ∈ parts, part.file ≠ Files.schemas → part.file ≠ Files.references →
    files.content part.file = .ok part.rows

/-- The files of different tables have different names. -/
theorem files_nodup {parts : List TablePart}
    (h : List.Forall₂ (fun e part => tablePart fits db.stores e = .ok part) db.tables.entries parts) :
    (parts.map (·.file)).Nodup := by
  have names : parts.map (·.file) = db.tables.keys.map (· ++ ".dat") := by
    rw [SortedMap.keys]
    generalize db.tables.entries = entries at h
    induction h with
    | nil => rfl
    | @cons e part entries parts isPart _ ih =>
      rw [List.map_cons, List.map_cons, List.map_cons, ih,
        (Files.ofTable?_eq_some (Dump.tablePart_eq_ok isPart).1).2]
  rw [names]
  apply List.Nodup.map
  · intro a b same
    exact (String.append_left_inj _).1 same
  · exact db.tables.keys_nodup

theorem dump_eq_ok (h : db.dump fits = .ok files) : ∃ parts, db.Dumped fits files parts := by
  obtain ⟨parts, isParts, h⟩ := Checked.bind_eq_ok.1 h
  obtain ⟨⟨⟩, -, h⟩ := Checked.bind_eq_ok.1 h
  obtain ⟨⟨⟩, -, eq⟩ := Checked.bind_eq_ok.1 h
  have each := Checked.forall₂_of_mapM isParts
  have differ : Files.schemas ≠ Files.references := by decide
  have content : ∀ {file bytes}, files.find? file = some bytes → files.content file = .ok bytes := by
    intro file bytes found
    rw [Files.content, found]
  cases eq
  refine ⟨parts, each, content ?_, content ?_, fun part mem notSchemas notReferences => content ?_⟩
  · rw [SortedMap.find?_insert_of_ne _ differ, SortedMap.find?_insert_self, List.flatMap]
  · rw [SortedMap.find?_insert_self, List.flatMap]
  · rw [SortedMap.find?_insert_of_ne _ notReferences, SortedMap.find?_insert_of_ne _ notSchemas]
    exact SortedMap.find?_foldl_insert_of_mem (files_nodup each) mem

/-! ## Schemas and references -/

/-- Adds the tables of a dump one after the other. -/
def loadTables (db : Database) (files : Files) (entries : List (String × Table)) : Checked Database :=
  entries.foldlM (fun db e => db.loadTable files e.1 e.2.schema) db

/-- The files of schemas and references are read table by table and reference by reference. -/
theorem load_eq {parts : List TablePart} (dumped : db.Dumped fits files parts)
    (tables : ∀ e ∈ db.tables.entries, e.2.schema.NoZeros) (references : ∀ r ∈ db.references, r.NoZeros)
    (stores : Stores) :
    load files stores = do
      let loaded ← loadTables ⟨stores, .empty, []⟩ files db.tables.entries
      return { loaded with references := loaded.references ++ db.references.map Reference.plain } := by
  have schemas : List.Forall₂
      (Read.Holds (readTable files) fun loaded e => loaded.loadTable files e.1 e.2.schema)
      db.tables.entries (parts.map (·.schema)) := by
    rw [List.forall₂_map_right_iff]
    apply forall₂_imp_of_mem dumped.each
    intro e mem part isPart
    obtain ⟨isFile, _, isSchema, _⟩ := Dump.tablePart_eq_ok isPart
    have noZero := (Files.ofTable?_eq_some isFile).1
    have record := Dump.TableRecord.written isSchema noZero (tables e mem)
    obtain ⟨notEmpty, gives⟩ := (Dump.parses_readTable files).holds record
    simp only [Schema.ofColumns_columns] at gives
    exact ⟨notEmpty, gives⟩
  have others : List.Forall₂ (Read.Holds readReference fun loaded r => .ok (loaded.addReference r.plain))
      db.references (db.references.map Dump.reference) := by
    rw [List.forall₂_map_right_iff, List.forall₂_same]
    intro r mem
    exact Dump.parses_readReference.holds (.intro (references r mem))
  rw [load, dumped.schemas, Checked.ok_bind, Read.run_untilEnd schemas]
  refine congrArg (_ >>= ·) (funext fun loaded => ?_)
  rw [dumped.references, Checked.ok_bind, Read.run_untilEnd others]
  have added := foldl_addReference (db.references.map Reference.plain) loaded
  rw [List.foldl_map] at added
  rw [← added]
  exact List.foldlM_pure

/-! ## Tables -/

/-- All tables are there as before, and perhaps others with these names. -/
structure Grows (isNew : String → Prop) (db db' : Database) : Prop where
  placed : db'.Placed
  references : db'.references = db.references
  retains : ∀ {name t}, db.tables.find? name = some t → db'.tables.find? name = some t ∧
    db'.stores.rowsAt t.store = db.stores.rowsAt t.store
  introduced : ∀ {name t}, db'.tables.find? name = some t → db.tables.find? name = none → isNew name

theorem Grows.refl {isNew : String → Prop} (placed : db.Placed) : Grows isNew db db :=
  ⟨placed, rfl, fun found => ⟨found, rfl⟩, fun found fresh => nomatch found.symm.trans fresh⟩

theorem Grows.trans {isNew : String → Prop} {db'' : Database} (h : Grows isNew db db')
    (h' : Grows isNew db' db'') : Grows isNew db db'' where
  placed := h'.placed
  references := h'.references.trans h.references
  retains found := by
    obtain ⟨found', rows⟩ := h.retains found
    obtain ⟨found'', rows'⟩ := h'.retains found'
    exact ⟨found'', rows'.trans rows⟩
  introduced {name t} found fresh := by
    cases middle : db'.tables.find? name with
    | none => exact h'.introduced found middle
    | some u => exact h.introduced middle fresh

theorem Grows.weaken {isNew isNew' : String → Prop} (h : Grows isNew db db')
    (more : ∀ name, isNew name → isNew' name) : Grows isNew' db db' :=
  { h with introduced := fun found fresh => more _ (h.introduced found fresh) }

/-- The database with one more table and rows in it. -/
def withRows (db : Database) (name : String) (schema : Schema) (rows : RowStore) : Database :=
  (db.withTable name schema []).updateRows ⟨name, schema, db.stores.length⟩ fun _ => rows

theorem find?_withRows (db : Database) (name : String) (schema : Schema) (rows : RowStore) :
    (db.withRows name schema rows).tables.find? name = some ⟨schema, db.stores.length⟩ ∧
      (db.withRows name schema rows).stores.rowsAt db.stores.length = rows := by
  refine ⟨SortedMap.find?_insert_self _, ?_⟩
  apply Stores.rowsAt_update_self
  change db.stores.length < db.stores.extend.1.length
  rw [Stores.length_extend]
  exact Nat.lt_succ_self _

theorem grows_withRows (placed : db.Placed) (fresh : db.tables.find? name = none) (schema : Schema)
    (rows : RowStore) : Grows (· = name) db (db.withRows name schema rows) where
  placed := (placed.withTable name schema []).updateRows _ _
  references := List.append_nil _
  retains {other t} found := by
    have inside := placed.inside found
    have stays : (db.withTable name schema []).tables.find? other = some t :=
      find?_withTable_of_old fresh found
    refine ⟨stays, ?_⟩
    exact (Stores.rowsAt_update_of_ne _ (Nat.ne_of_lt inside)).trans (Stores.rowsAt_extend_of_lt inside)
  introduced {other t} found fresh' := by
    change (db.withTable name schema []).tables.find? other = some t at found
    rcases find?_withTable found with ⟨rfl, _⟩ | old
    · rfl
    · cases old.symm.trans fresh'

theorem loadTable_eq (fresh : db.tables.find? name = none) (schema : Schema) :
    db.loadTable files name schema =
      (loadRows files name schema.rowSize).map fun rows => db.withRows name schema rows := by
  have isNew : db.addTable? name schema = some (db.withTable name schema []) := by
    rw [addTable?_eq, has_eq_false.2 fresh]
    rfl
  have isTable : (db.withTable name schema []).table name = .ok ⟨schema, db.stores.length⟩ :=
    table_eq_ok.2 (SortedMap.find?_insert_self _)
  rw [loadTable, isNew]
  simp only [isTable]
  cases loadRows files name schema.rowSize with
  | error e => rfl
  | ok rows => rfl

theorem loadTable_eq_ok (placed : db.Placed) (fresh : db.tables.find? name = none) {schema : Schema}
    (h : db.loadTable files name schema = .ok db') :
    Grows (· = name) db db' ∧ ∃ store, db'.tables.find? name = some ⟨schema, store⟩ ∧
      loadRows files name schema.rowSize = .ok (db'.stores.rowsAt store) := by
  rw [loadTable_eq fresh] at h
  cases isRows : loadRows files name schema.rowSize with
  | error e =>
    rw [isRows] at h
    cases h
  | ok rows =>
    rw [isRows] at h
    cases h
    obtain ⟨found, same⟩ := db.find?_withRows name schema rows
    exact ⟨grows_withRows placed fresh schema rows, _, found, by rw [same]⟩

/-- A name that is not among those of the new tables is still free. -/
theorem Grows.fresh {isNew : String → Prop} (h : Grows isNew db db')
    (fresh : db.tables.find? name = none) (other : ¬ isNew name) : db'.tables.find? name = none := by
  cases found : db'.tables.find? name with
  | none => rfl
  | some t => exact absurd (h.introduced found fresh) other

section

variable {entries : List (String × Table)}

/-- Tables with different names are all added, each with the rows of its file. -/
theorem loadTables_eq_ok (placed : db.Placed) (distinct : (entries.map (·.1)).Nodup)
    (fresh : ∀ e ∈ entries, db.tables.find? e.1 = none)
    (h : db.loadTables files entries = .ok db') :
    Grows (· ∈ entries.map (·.1)) db db' ∧ ∀ e ∈ entries, ∃ store,
      db'.tables.find? e.1 = some ⟨e.2.schema, store⟩ ∧
        loadRows files e.1 e.2.schema.rowSize = .ok (db'.stores.rowsAt store) := by
  induction entries generalizing db with
  | nil =>
    cases h
    exact ⟨.refl placed, nofun⟩
  | cons e entries ih =>
    rw [List.map_cons, List.nodup_cons] at distinct
    rw [loadTables, List.foldlM_cons] at h
    obtain ⟨db₁, first, h⟩ := Checked.bind_eq_ok.1 h
    obtain ⟨grows, store, found, isRows⟩ := loadTable_eq_ok placed (fresh e List.mem_cons_self) first
    have fresh₁ : ∀ d ∈ entries, db₁.tables.find? d.1 = none := fun d mem =>
      grows.fresh (fresh d (List.mem_cons_of_mem _ mem)) fun same =>
        distinct.1 (same ▸ List.mem_map_of_mem mem)
    obtain ⟨more, others⟩ := ih grows.placed distinct.2 fresh₁ h
    constructor
    · refine (grows.weaken ?_).trans (more.weaken fun name mem => List.mem_cons_of_mem _ mem)
      rintro name rfl
      exact List.mem_cons_self
    · intro d mem
      rcases List.mem_cons.1 mem with rfl | mem
      · obtain ⟨found', rows⟩ := more.retains found
        exact ⟨store, found', by rw [rows]; exact isRows⟩
      · exact others d mem

/-- If the rows of all tables can be read, nothing else stops the loading. -/
theorem loadTables_of_loadRows (placed : db.Placed) (distinct : (entries.map (·.1)).Nodup)
    (fresh : ∀ e ∈ entries, db.tables.find? e.1 = none)
    (readable : ∀ e ∈ entries, ∃ rows, loadRows files e.1 e.2.schema.rowSize = .ok rows) :
    ∃ db', db.loadTables files entries = .ok db' := by
  induction entries generalizing db with
  | nil => exact ⟨db, rfl⟩
  | cons e entries ih =>
    rw [List.map_cons, List.nodup_cons] at distinct
    obtain ⟨rows, isRows⟩ := readable e List.mem_cons_self
    have isFresh := fresh e List.mem_cons_self
    have grows := grows_withRows placed isFresh e.2.schema rows
    have fresh₁ : ∀ d ∈ entries, (db.withRows e.1 e.2.schema rows).tables.find? d.1 = none :=
      fun d mem => grows.fresh (fresh d (List.mem_cons_of_mem _ mem)) fun same =>
        distinct.1 (same ▸ List.mem_map_of_mem mem)
    obtain ⟨db', rest⟩ := ih grows.placed distinct.2 fresh₁ fun d mem =>
      readable d (List.mem_cons_of_mem _ mem)
    refine ⟨db', ?_⟩
    rw [loadTables, List.foldlM_cons, loadTable_eq isFresh, isRows]
    exact rest

end

/-! ## The database that is loaded -/

/-- What a loaded database has of the one that was dumped, whatever rows its tables got. -/
structure LoadedFrom (db : Database) (files : Files) (db' : Database) : Prop where
  placed : db'.Placed
  references : db'.references = db.references.map Reference.plain
  names : db'.tableNames = db.tableNames
  tables : ∀ {name t}, db.tables.find? name = some t → ∃ store,
    db'.tables.find? name = some ⟨t.schema, store⟩ ∧
      loadRows files name t.schema.rowSize = .ok (db'.stores.rowsAt store)

theorem loadedFrom {parts : List TablePart} (dumped : db.Dumped fits files parts)
    (tables : ∀ e ∈ db.tables.entries, e.2.schema.NoZeros) (references : ∀ r ∈ db.references, r.NoZeros)
    (h : load files stores = .ok db') : db.LoadedFrom files db' := by
  rw [load_eq dumped tables references] at h
  obtain ⟨loaded, isLoaded, eq⟩ := Checked.bind_eq_ok.1 h
  cases eq
  obtain ⟨grows, each⟩ :=
    loadTables_eq_ok (placed_empty stores) db.tables.keys_nodup (fun _ _ => rfl) isLoaded
  have found : ∀ {name t}, db.tables.find? name = some t → ∃ store,
      loaded.tables.find? name = some ⟨t.schema, store⟩ ∧
        loadRows files name t.schema.rowSize = .ok (loaded.stores.rowsAt store) := by
    intro name t isTable
    exact each (name, t) (SortedMap.mem_of_find? isTable)
  refine ⟨grows.placed.withReferences _, ?_, ?_, found⟩
  · rw [grows.references, List.nil_append]
  · apply SortedMap.keys_eq_of_mem_iff
    intro name
    constructor
    · intro mem
      obtain ⟨t, isTable⟩ := SortedMap.mem_keys_iff.1 mem
      exact grows.introduced isTable rfl
    · intro mem
      obtain ⟨t, isTable⟩ := SortedMap.mem_keys_iff.1 mem
      obtain ⟨store, isLoaded, _⟩ := found isTable
      exact SortedMap.mem_keys_iff.2 ⟨_, isLoaded⟩

theorem load_of_loadRows {parts : List TablePart} (dumped : db.Dumped fits files parts)
    (tables : ∀ e ∈ db.tables.entries, e.2.schema.NoZeros) (references : ∀ r ∈ db.references, r.NoZeros)
    (stores : Stores)
    (readable : ∀ e ∈ db.tables.entries, ∃ rows, loadRows files e.1 e.2.schema.rowSize = .ok rows) :
    ∃ db', load files stores = .ok db' := by
  obtain ⟨loaded, isLoaded⟩ :=
    loadTables_of_loadRows (placed_empty stores) db.tables.keys_nodup (fun _ _ => rfl) readable
  rw [load_eq dumped tables references, isLoaded]
  exact ⟨_, rfl⟩

/-! ## Rows -/

/-- The rows of a table are read back from its file, unless that is one of the two that every dump has. -/
theorem loadRows_eq {parts : List TablePart} (dumped : db.Dumped fits files parts) {t : Table}
    (isTable : db.tables.find? name = some t)
    (whole : ∀ e ∈ (db.stores.rowsAt t.store).rows.entries, e.2.length = t.schema.rowSize)
    (notSchemas : name ≠ "schema") (notReferences : name ≠ "constraints") :
    loadRows files name t.schema.rowSize =
      .ok (RowStore.ofEntries (db.stores.rowsAt t.store).rows.entries) := by
  obtain ⟨part, mem, isPart⟩ := exists_of_mem_left dumped.each (SortedMap.mem_of_find? isTable)
  obtain ⟨isFile, _, _, chunks, isRows, bytes⟩ := Dump.tablePart_eq_ok isPart
  have file := (Files.ofTable?_eq_some isFile).2
  have differ : ∀ other : String, name ≠ other → part.file ≠ other ++ ".dat" := by
    intro other differ same
    rw [file] at same
    exact differ ((String.append_left_inj _).1 same)
  have content := dumped.rows part mem (differ "schema" notSchemas) (differ "constraints" notReferences)
  have rows : List.Forall₂
      (Read.Holds (Dump.readRow t.schema.rowSize) fun rows e => .ok (rows.insert e.1 e.2))
      (db.stores.rowsAt t.store).rows.entries chunks := by
    apply forall₂_imp_of_mem (Checked.forall₂_of_mapM isRows)
    intro e mem chunk isRow
    exact (Dump.parses_readRow _).holds (.written isRow (whole e mem))
  rw [loadRows, isFile]
  simp only [content, bytes, Checked.ok_bind]
  rw [Read.run_untilEnd rows]
  exact List.foldlM_pure

end Database

end RelEngine
