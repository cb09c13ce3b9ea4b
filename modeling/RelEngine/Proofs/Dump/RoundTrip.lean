import RelEngine.Proofs.Dump.Loading

/-!
A database that is dumped and loaded again.

A dump keeps everything but what references ask for on a change, unless a name collides with the format: a
zero in a name ends it early, and a table named `schema` or `constraints` loses its rows to one of the two
files that every dump has.
-/
namespace RelEngine.Database

variable {fits : String → Bool} {db db' : Database} {files : Files}

/-- The second database has the tables of the first with the same rows under the same ids, and the same
names in its references. The next id in a table is the one right above the highest. -/
structure Restored (db db' : Database) : Prop where
  names : db'.tableNames = db.tableNames
  tables : ∀ name ∈ db.tableNames, ∃ schema rows rows',
    db.schema name = .ok schema ∧ db'.schema name = .ok schema ∧
      db.rows name = .ok rows ∧ db'.rows name = .ok rows' ∧ rows'.rows = rows.rows ∧
      rows'.nextId = rows.ids.max?.elim 0 (· + 1)
  references : db'.references = db.references.map Reference.plain

/-- No table has the name of one of the two files that every dump has. -/
def Unmistakable (db : Database) : Prop :=
  ∀ name ∈ db.tableNames, name ≠ "schema" ∧ name ≠ "constraints"

instance (db : Database) : Decidable db.Unmistakable :=
  inferInstanceAs (Decidable (∀ name ∈ db.tableNames, _))

/-- Every stored row has the size that its table's schema asks for. -/
def Whole (db : Database) : Prop :=
  ∀ e ∈ db.tables.entries, ∀ row ∈ (db.stores.rowsAt e.2.store).rows.entries,
    row.2.length = e.2.schema.rowSize

instance (db : Database) : Decidable db.Whole :=
  inferInstanceAs (Decidable (∀ e ∈ db.tables.entries, _))

/-- The files of a dump are loaded, if no name in them is mistaken for something else. -/
theorem load_of_dump (dumped : db.dump fits = .ok files) (whole : db.Whole) (free : db.Unmistakable)
    (columns : ∀ e ∈ db.tables.entries, e.2.schema.NoZeros) (references : ∀ r ∈ db.references, r.NoZeros)
    (stores : Stores) : ∃ db', load files stores = .ok db' ∧ db.Restored db' := by
  obtain ⟨parts, isDump⟩ := dump_eq_ok dumped
  have read : ∀ {name t}, db.tables.find? name = some t →
      Dump.loadRows files name t.schema.rowSize =
        .ok (RowStore.ofEntries (db.stores.rowsAt t.store).rows.entries) := by
    intro name t isTable
    have mem := SortedMap.mem_of_find? isTable
    obtain ⟨notSchemas, notReferences⟩ := free name (List.mem_map_of_mem mem)
    exact loadRows_eq isDump isTable (whole _ mem) notSchemas notReferences
  have readable : ∀ e ∈ db.tables.entries, ∃ rows,
      Dump.loadRows files e.1 e.2.schema.rowSize = .ok rows := fun e mem =>
    ⟨_, read (SortedMap.find?_of_mem mem)⟩
  obtain ⟨db', loaded⟩ := load_of_loadRows isDump columns references stores readable
  have result := loadedFrom isDump columns references loaded
  refine ⟨db', loaded, result.names, fun name mem => ?_, result.references⟩
  obtain ⟨t, isTable⟩ := SortedMap.mem_keys_iff.1 mem
  obtain ⟨store, isTable', isRows⟩ := result.tables isTable
  have same : db'.stores.rowsAt store = RowStore.ofEntries (db.stores.rowsAt t.store).rows.entries :=
    Except.ok.inj (isRows.symm.trans (read isTable))
  refine ⟨t.schema, _, _, schema_eq_ok isTable, schema_eq_ok (t := ⟨t.schema, store⟩) isTable',
    rows_eq_ok isTable, rows_eq_ok (t := ⟨t.schema, store⟩) isTable', ?_, ?_⟩
  · rw [same, RowStore.rows_ofEntries]
  · rw [same]
    exact RowStore.nextId_ofEntries _

/-! ## What a dump can hold -/

/-- The names and numbers of the database fit the format of a dump, and every stored row has its size. The
id above that of a row is a number of 64 bits too. -/
structure Encodable (db : Database) : Prop where
  whole : db.Whole
  usable : ∀ name ∈ db.tableNames, Files.ofTable? name ≠ none
  free : db.Unmistakable
  columns : ∀ e ∈ db.tables.entries, e.2.schema.NoZeros
  references : ∀ r ∈ db.references, r.NoZeros
  counts : ∀ e ∈ db.tables.entries, e.2.schema.size < Nat.pow 2 32
  sizes : ∀ e ∈ db.tables.entries, ∀ c ∈ e.2.schema.columns, c.size < Nat.pow 2 32
  ids : ∀ e ∈ db.tables.entries, ∀ row ∈ (db.stores.rowsAt e.2.store).rows.entries,
    row.1 + 1 < RowId.limit

/-- The file system has room for the names of all files of the dump. -/
structure Writable (fits : String → Bool) (db : Database) : Prop where
  schemas : fits Files.schemas = true
  references : fits Files.references = true
  tables : ∀ name ∈ db.tableNames, fits (name ++ ".dat") = true

theorem Encodable.dump_ok (h : db.Encodable) (writable : db.Writable fits) :
    ∃ files, db.dump fits = .ok files := by
  have parts : ∃ parts, db.tables.entries.mapM (Dump.tablePart fits db.stores) = .ok parts := by
    apply Checked.mapM_of_forall
    rintro ⟨name, t⟩ mem
    have isName : name ∈ db.tableNames := List.mem_map_of_mem mem
    obtain ⟨file, isFile⟩ := Option.ne_none_iff_exists'.1 (h.usable name isName)
    obtain ⟨columns, areColumns⟩ : ∃ bs, t.schema.columns.mapM Dump.column = .ok bs := by
      apply Checked.mapM_of_forall
      intro c isColumn
      have size : Dump.length c.size = .ok _ := if_pos (h.sizes _ mem c isColumn)
      rw [Dump.column, size]
      exact ⟨_, rfl⟩
    obtain ⟨rows, areRows⟩ :
        ∃ bs, (db.stores.rowsAt t.store).rows.entries.mapM Dump.row = .ok bs := by
      apply Checked.mapM_of_forall
      intro row isRow
      have id : Dump.rowId row.1 = .ok _ := if_pos (Nat.lt_of_succ_lt (h.ids _ mem row isRow))
      rw [Dump.row, id]
      exact ⟨_, rfl⟩
    have count : Dump.length t.schema.size = .ok _ := if_pos (h.counts _ mem)
    have isShort := writable.tables name isName
    rw [← (Files.ofTable?_eq_some isFile).2, ← Files.checkName_eq_ok] at isShort
    refine ⟨⟨file, Dump.text name ++ Bytes.bigEndian 4 t.schema.size ++ columns.flatten, rows.flatten⟩, ?_⟩
    unfold Dump.tablePart
    simp only [isFile, Dump.table, count, areColumns, areRows, isShort]
    rfl
  obtain ⟨parts, areParts⟩ := parts
  rw [dump, areParts, Checked.ok_bind, Files.checkName_eq_ok.2 writable.schemas,
    Files.checkName_eq_ok.2 writable.references]
  exact ⟨_, rfl⟩

/-- A database that fits the format is dumped, whatever the names are that the file system has room for, if
those of its files are among them; and it is restored from the files of its dump, beside whatever rows are
kept already. -/
theorem Encodable.load_dump (h : db.Encodable) (writable : db.Writable fits) (stores : Stores) :
    ∃ files db', db.dump fits = .ok files ∧ load files stores = .ok db' ∧ db.Restored db' := by
  obtain ⟨files, dumped⟩ := h.dump_ok writable
  obtain ⟨db', loaded, restored⟩ := load_of_dump dumped h.whole h.free h.columns h.references stores
  exact ⟨files, db', dumped, loaded, restored⟩

/-- Two tables with a reference between them, of which the second is empty again. -/
def afterDelete : Database := afterAll (parentAndChild ++ [.delete ⟨"c", none⟩])

theorem load_dump_afterDelete :
    ∃ files db', afterDelete.dump = .ok files ∧ load files afterDelete.stores = .ok db' ∧
      afterDelete.Restored db' := by
  apply Encodable.load_dump
  · constructor <;> decide +kernel
  · constructor <;> decide +kernel

/-- A name with which the name of the table's file is a byte longer than usual file systems have room for. -/
def longName : String := String.ofList (List.replicate 252 'a')

theorem toList_longName : longName.toList = List.replicate 252 'a' := String.toList_ofList

theorem ofTable?_longName : Files.ofTable? longName ≠ none := by
  have harmless : (List.replicate 252 'a').isEmpty = false ∧
      (List.replicate 252 'a').any (fun c => c == '/' || c == '\\' || c == '\x00') = false ∧
      Files.hasDoubleDot (List.replicate 252 'a') = false := by
    refine ⟨?_, ?_, ?_⟩ <;> decide +kernel
  unfold Files.ofTable?
  simp only [toList_longName, harmless]
  intro isNone
  cases isNone

theorem short_longName : Files.short (longName ++ ".dat") = false := by
  have bytes : Utf8.encode (longName ++ ".dat") =
      (List.replicate 252 'a' ++ ".dat".toList).flatMap String.utf8EncodeChar := by
    rw [Utf8.encode, String.toList_append, toList_longName]
  rw [Files.short, bytes]
  decide +kernel

/-- There is no dump without a file for each table. -/
theorem dump_ne_ok {name : String} (isTable : name ∈ db.tableNames) (long : fits (name ++ ".dat") = false) :
    db.dump fits ≠ .ok files := by
  intro dumped
  obtain ⟨parts, isDump⟩ := dump_eq_ok dumped
  obtain ⟨⟨_, t⟩, mem, rfl⟩ := List.mem_map.1 isTable
  obtain ⟨part, _, isPart⟩ := exists_of_mem_left isDump.each mem
  obtain ⟨isFile, isShort, _⟩ := Dump.tablePart_eq_ok isPart
  rw [(Files.ofTable?_eq_some isFile).2] at isShort
  cases isShort.symm.trans long

/-- A table under that name. -/
def longTable : Database := afterAll [.createTable ⟨longName, [], []⟩]

/-- That the names and numbers fit the format is not enough, for there has to be a file for each table. -/
theorem longName_not_dumped :
    longTable.Encodable ∧ Files.short (longName ++ ".dat") = false ∧
      ∀ fits, fits (longName ++ ".dat") = false → ∀ files, longTable.dump fits ≠ .ok files := by
  have isTable : longName ∈ longTable.tableNames := List.mem_singleton_self _
  refine ⟨?_, short_longName, fun fits long files => dump_ne_ok isTable long⟩
  constructor
  case usable =>
    intro name mem
    rw [List.mem_singleton.1 mem]
    exact ofTable?_longName
  all_goals decide +kernel

/-! ## Databases that statements lead to -/

/-- References connect columns of tables that are there, so their names are names of these. -/
theorem noZeros_of_connected (connected : db.Connected) (dumped : db.dump fits = .ok files)
    (columns : ∀ e ∈ db.tables.entries, e.2.schema.NoZeros) : ∀ r ∈ db.references, r.NoZeros := by
  obtain ⟨parts, isDump⟩ := dump_eq_ok dumped
  have table : ∀ {name t}, db.tables.find? name = some t → NoZero name := by
    intro name t isTable
    obtain ⟨part, _, isPart⟩ := exists_of_mem_left isDump.each (SortedMap.mem_of_find? isTable)
    exact (Files.ofTable?_eq_some (Dump.tablePart_eq_ok isPart).1).1
  have field : ∀ {name t field}, db.tables.find? name = some t → field ∈ t.schema.names →
      NoZero field := by
    intro name t field isTable mem
    obtain ⟨c, isColumn, rfl⟩ := List.mem_map.1 mem
    exact columns _ (SortedMap.mem_of_find? isTable) c isColumn
  intro r mem
  obtain ⟨⟨t, isTable, hasChild⟩, u, isTable', hasParent⟩ := connected r mem
  exact ⟨table isTable, field isTable hasChild, table isTable', field isTable' hasParent⟩

/-- Whatever statements led to a database, if it can be dumped it is restored from the files of its dump,
as long as none of its tables takes one of the two names that every dump needs and none of its columns has
a zero in its name. The dump itself does not see to either. Strings apart, columns were declared with the size
of their type. -/
theorem Reached.dump_restored (reached : db.Reached fun _ s => s.Declares Column.Sized)
    (dumped : db.dump fits = .ok files) (free : db.Unmistakable)
    (columns : ∀ e ∈ db.tables.entries, e.2.schema.NoZeros) (stores : Stores) :
    ∃ db', load files stores = .ok db' ∧ db.Restored db' := by
  have whole : db.Whole := by
    rintro ⟨name, t⟩ isTable ⟨id, row⟩ isRow
    have laid := reached.laid fun _ sized => sized
    exact laid.whole (SortedMap.find?_of_mem isTable) (SortedMap.find?_of_mem isRow)
  have references := noZeros_of_connected reached.connected dumped columns
  exact load_of_dump dumped whole free columns references stores

/-- The database that comes from dumping this one and loading the files. -/
def reloaded (db : Database) : Checked Database := do load (← db.dump) db.stores

/-- A table may be created that the schemas are written over, or with a column whose name ends early. -/
theorem dump_restored_unless_mistaken :
    (∃ files db', afterDelete.dump = .ok files ∧ load files afterDelete.stores = .ok db' ∧
      afterDelete.Restored db') ∧
    (afterAll [.createTable ⟨"schema", [.plain "a" .int 0], []⟩]).reloaded.map (·.tableNames) =
      .error (.corruptDump (.unexpectedEnd "schema.dat" 13)) ∧
    (afterAll [.createTable ⟨"t", [.plain "a\x00" .int 0], []⟩]).reloaded.map (·.tableNames) =
      .error (.corruptDump (.unterminatedString "schema.dat" 15)) := by
  refine ⟨?_, by decide +kernel, by decide +kernel⟩
  have reached : afterDelete.Reached fun _ s => s.Declares Column.Sized := by
    refine reached_afterAll fun s mem _ => ?_
    have sized : ∀ s ∈ parentAndChild ++ [.delete ⟨"c", none⟩], s.Declares Column.Sized := by
      decide +kernel
    exact sized s mem
  have isDumped : afterDelete.dump.toOption.isSome = true := by decide +kernel
  obtain ⟨files, dumped⟩ := Option.isSome_iff_exists.1 isDumped
  rw [Checked.toOption_eq_some] at dumped
  obtain ⟨db', loaded, restored⟩ :=
    Reached.dump_restored reached dumped (by decide +kernel) (by decide +kernel) afterDelete.stores
  exact ⟨files, db', dumped, loaded, restored⟩

end RelEngine.Database
