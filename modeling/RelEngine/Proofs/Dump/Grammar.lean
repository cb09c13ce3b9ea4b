import Mathlib.Data.List.Induction
import RelEngine.Proofs.Dump.Faults

/-!
Which files are loaded, and what from them. A dump need not have been written by the dumping of a database:
flags may be any bytes, columns may be repeated and so may rows. Everything else in the files has to be
exactly so, and what is wrong is told by one of two kinds of error.
-/
namespace RelEngine

open Dump (ColumnRecord TableRecord RowRecord ReferenceRecord loadRows readTable readRow readReference)

variable {db db' : Database} {files : Files} {stores : Stores} {name : String} {rowSize : Nat}
  {bytes : Bytes}

/-! ## Columns with the same name -/

/-- The columns whose names none before them has. -/
def Column.firsts : List Column → List Column
  | [] => []
  | c :: columns => c :: (firsts columns).filter fun d => d.name != c.name

theorem Schema.columns_ofColumns (columns : List Column) :
    (ofColumns columns).columns = Column.firsts columns := by
  have added : ∀ (columns : List Column) (start : Schema), (columns.foldl add start).columns =
      start.columns ++ (Column.firsts columns).filter fun d => !start.names.contains d.name := by
    intro columns
    induction columns with
    | nil => exact fun start => (List.append_nil _).symm
    | cons c columns ih =>
      intro start
      rw [List.foldl_cons, ih, Column.firsts]
      by_cases taken : c.name ∈ start.names
      · rw [add_of_mem taken, List.filter_cons_of_neg (by simpa using taken), List.filter_filter]
        congr 1
        apply List.filter_congr
        intro d _
        by_cases eq : d.name = c.name
        · simp [eq, taken]
        · simp [eq]
      · have one := columns_add taken
        have names : (start.add c).names = start.names ++ [c.name] := by
          rw [Schema.names, one, List.map_append]
          rfl
        rw [one, names, List.filter_cons_of_pos (by simpa using taken), List.filter_filter,
          List.append_assoc, List.singleton_append]
        congr 2
        apply List.filter_congr
        intro d _
        by_cases eq : d.name = c.name
        · simp [eq]
        · simp [eq]
  rw [ofColumns, added]
  have all : (Column.firsts columns).filter (fun d => !empty.names.contains d.name) =
      Column.firsts columns := List.filter_eq_self.2 fun _ _ => rfl
  rw [all]
  rfl

/-! ## Rows -/

theorem Files.content_eq_ok : files.content name = .ok bytes ↔ files.find? name = some bytes := by
  rw [content]
  cases files.find? name with
  | none =>
    constructor
    · intro h
      cases h
    · intro h
      cases h
  | some found => exact ⟨fun h => congrArg _ (Except.ok.inj h), fun h => congrArg _ (Option.some.inj h)⟩

/-- Of several rows with the same id the last one counts. -/
theorem RowStore.find?_ofEntries (entries : List (RowId × Bytes)) (id : RowId) :
    (ofEntries entries).find? id = entries.reverse.lookup id := by
  induction entries using List.reverseRecOn with
  | nil => rfl
  | append_singleton entries e ih =>
    obtain ⟨last, row⟩ := e
    have step : ofEntries (entries ++ [(last, row)]) = (ofEntries entries).insert last row := by
      rw [ofEntries, List.foldl_append]
      rfl
    rw [step, List.reverse_append, List.reverse_singleton, List.singleton_append]
    by_cases same : id = last
    · subst same
      rw [List.lookup_cons_self]
      exact SortedMap.find?_insert_self row
    · have differ : (id == last) = false := beq_eq_false_iff_ne.2 same
      rw [List.lookup_cons, differ, ← ih]
      exact SortedMap.find?_insert_of_ne row same

theorem Dump.RowRecord.length {e : RowId × Bytes} {chunk : Bytes} (h : RowRecord rowSize e chunk) :
    chunk.length = 8 + rowSize := by
  obtain ⟨_, rfl⟩ := h
  rw [List.length_append, Bytes.length_bigEndian]

/-- Any bytes are rows, if there are neither too few nor too many for the last one. -/
theorem Dump.exists_rowRecords : (∃ entries chunks, List.Forall₂ (RowRecord rowSize) entries chunks ∧
    chunks.flatten = bytes) ↔ 8 + rowSize ∣ bytes.length := by
  constructor
  · rintro ⟨entries, chunks, records, rfl⟩
    induction records with
    | nil => exact Nat.dvd_zero _
    | cons record _ ih =>
      rw [List.flatten_cons, List.length_append, record.length]
      exact (Nat.dvd_add_right (Nat.dvd_refl _)).2 ih
  · rintro ⟨count, length⟩
    induction count generalizing bytes with
    | zero => exact ⟨[], [], .nil, (List.eq_nil_of_length_eq_zero length).symm⟩
    | succ count ih =>
      rw [Nat.mul_succ] at length
      have left : (bytes.drop (8 + rowSize)).length = (8 + rowSize) * count := by
        rw [List.length_drop]
        omega
      obtain ⟨entries, chunks, records, whole⟩ := ih left
      have idLength : (bytes.take 8).length = 8 := by
        rw [List.length_take]
        omega
      have rowLength : ((bytes.drop 8).take rowSize).length = rowSize := by
        rw [List.length_take, List.length_drop]
        omega
      obtain ⟨id, small, same⟩ := Bytes.exists_bigEndian idLength
      refine ⟨_, _, .cons (.intro small rowLength) records, ?_⟩
      rw [List.flatten_cons, whole, same, List.append_assoc, ← List.drop_drop, List.take_append_drop,
        List.take_append_drop]

theorem Dump.loadRows_eq_ok {rows : RowStore} : loadRows files name rowSize = .ok rows ↔
    ∃ file entries chunks, Files.ofTable? name = some file ∧ files.find? file = some chunks.flatten ∧
      List.Forall₂ (RowRecord rowSize) entries chunks ∧ rows = RowStore.ofEntries entries := by
  have result : ∀ entries : List (RowId × Bytes),
      entries.foldlM (fun (rows : RowStore) e => (.ok (rows.insert e.1 e.2) : Checked RowStore)) .empty =
        .ok (RowStore.ofEntries entries) := fun _ => List.foldlM_pure
  rw [loadRows]
  cases isFile : Files.ofTable? name with
  | none =>
    refine ⟨fun h => ?_, ?_⟩
    · cases h
    · rintro ⟨file, _, _, isFile, _⟩
      cases isFile
  | some file =>
    simp only
    rw [Checked.bind_eq_ok]
    constructor
    · rintro ⟨bytes, isContent, isRows⟩
      obtain ⟨entries, chunks, records, rfl, isResult⟩ :=
        (Dump.parses_readRow rowSize).run_untilEnd_eq_ok.1 isRows
      rw [result] at isResult
      exact ⟨file, entries, chunks, rfl, Files.content_eq_ok.1 isContent, records,
        (Except.ok.inj isResult).symm⟩
    · rintro ⟨_, entries, chunks, ⟨⟩, found, records, rfl⟩
      exact ⟨chunks.flatten, Files.content_eq_ok.2 found,
        (Dump.parses_readRow rowSize).run_untilEnd_eq_ok.2 ⟨entries, chunks, records, rfl, result entries⟩⟩

/-! ## Tables -/

namespace Database

/-- Tables are only added under names that are still free. -/
theorem distinct_of_loadTables {entries : List (String × Table)} (placed : db.Placed)
    (h : db.loadTables files entries = .ok db') :
    (entries.map (·.1)).Nodup ∧ ∀ e ∈ entries, db.tables.find? e.1 = none := by
  induction entries generalizing db with
  | nil => exact ⟨.nil, nofun⟩
  | cons e entries ih =>
    rw [loadTables, List.foldlM_cons] at h
    obtain ⟨db₁, first, h⟩ := Checked.bind_eq_ok.1 h
    have fresh : db.tables.find? e.1 = none := by
      cases isNew : db.addTable? e.1 e.2.schema with
      | none =>
        rw [loadTable, isNew] at first
        cases first
      | some larger => exact (addTable?_eq_some isNew).1
    obtain ⟨grows, store, found, _⟩ := loadTable_eq_ok placed fresh first
    obtain ⟨distinct, others⟩ := ih grows.placed h
    have old : ∀ d ∈ entries, db.tables.find? d.1 = none := by
      intro d mem
      cases isTable : db.tables.find? d.1 with
      | none => rfl
      | some t => cases (others d mem).symm.trans (grows.retains isTable).1
    constructor
    · rw [List.map_cons, List.nodup_cons]
      refine ⟨fun mem => ?_, distinct⟩
      obtain ⟨d, isEntry, same⟩ := List.mem_map.1 mem
      have absent := others d isEntry
      rw [same, found] at absent
      cases absent
    · intro d mem
      rcases List.mem_cons.1 mem with rfl | mem
      · exact fresh
      · exact old d mem

end Database

/-! ## Dumps -/

/-- The files are a dump of these tables, given by their names and columns, and of these references. -/
structure Files.Describe (files : Files) (tables : List (String × List Column))
    (references : List Reference) : Prop where
  schemas : ∃ chunks, List.Forall₂ TableRecord tables chunks ∧
    files.find? Files.schemas = some chunks.flatten
  distinct : (tables.map (·.1)).Nodup
  rows : ∀ t ∈ tables, ∃ file bytes, Files.ofTable? t.1 = some file ∧ files.find? file = some bytes ∧
    8 + (Schema.ofColumns t.2).rowSize ∣ bytes.length
  references : ∃ chunks, List.Forall₂ ReferenceRecord references chunks ∧
    files.find? Files.references = some chunks.flatten

/-- The database has the tables and references that the files describe, and the rows that stand in the
files of the tables. Of columns with the same name it has the first, and of rows with the same id the
last. -/
structure Database.TakenFrom (db : Database) (files : Files) (tables : List (String × List Column))
    (references : List Reference) : Prop where
  names : ∀ name, name ∈ db.tableNames ↔ name ∈ tables.map (·.1)
  tables : ∀ t ∈ tables, ∃ schema rows file entries chunks, db.schema t.1 = .ok schema ∧
    db.rows t.1 = .ok rows ∧ schema.columns = Column.firsts t.2 ∧
    Files.ofTable? t.1 = some file ∧ files.find? file = some chunks.flatten ∧
    List.Forall₂ (RowRecord schema.rowSize) entries chunks ∧
    ∀ id, rows.find? id = entries.reverse.lookup id
  references : db.references = references

namespace Database

/-- The tables of a description, as the loading adds them. -/
def described (tables : List (String × List Column)) : List (String × Table) :=
  tables.map fun t => (t.1, ⟨.ofColumns t.2, 0⟩)

theorem loadTables_described (tables : List (String × List Column)) :
    db.loadTables files (described tables) =
      tables.foldlM (fun db t => db.loadTable files t.1 (.ofColumns t.2)) db := by
  rw [loadTables, described, List.foldlM_map]

theorem names_described (tables : List (String × List Column)) :
    (described tables).map (·.1) = tables.map (·.1) := by
  rw [described, List.map_map]
  rfl

/-- A database is loaded from descriptions of tables that can all be added, with the references added to
what they give. -/
theorem load_eq_ok : load files stores = .ok db ↔ ∃ tables references loaded,
    (∃ chunks, List.Forall₂ TableRecord tables chunks ∧
      files.find? Files.schemas = some chunks.flatten) ∧
    (∃ chunks, List.Forall₂ ReferenceRecord references chunks ∧
      files.find? Files.references = some chunks.flatten) ∧
    loadTables ⟨stores, .empty, []⟩ files (described tables) = .ok loaded ∧
    db = { loaded with references := loaded.references ++ references } := by
  have added : ∀ (references : List Reference) (loaded : Database),
      references.foldlM (fun (db : Database) r => (.ok (db.addReference r) : Checked Database)) loaded =
        .ok { loaded with references := loaded.references ++ references } := by
    intro references loaded
    rw [← foldl_addReference]
    exact List.foldlM_pure
  constructor
  · intro h
    obtain ⟨bytes, isSchemas, h⟩ := Checked.bind_eq_ok.1 h
    obtain ⟨loaded, areTables, h⟩ := Checked.bind_eq_ok.1 h
    obtain ⟨bytes', isReferences, areReferences⟩ := Checked.bind_eq_ok.1 h
    obtain ⟨tables, chunks, records, rfl, isLoaded⟩ :=
      (Dump.parses_readTable files).run_untilEnd_eq_ok.1 areTables
    obtain ⟨references, chunks', records', rfl, eq⟩ :=
      Dump.parses_readReference.run_untilEnd_eq_ok.1 areReferences
    rw [added] at eq
    cases eq
    rw [← loadTables_described] at isLoaded
    exact ⟨tables, references, loaded, ⟨chunks, records, Files.content_eq_ok.1 isSchemas⟩,
      ⟨chunks', records', Files.content_eq_ok.1 isReferences⟩, isLoaded, rfl⟩
  · rintro ⟨tables, references, loaded, ⟨chunks, records, isSchemas⟩,
      ⟨chunks', records', isReferences⟩, isLoaded, rfl⟩
    rw [loadTables_described] at isLoaded
    refine Checked.bind_eq_ok.2 ⟨_, Files.content_eq_ok.2 isSchemas, Checked.bind_eq_ok.2 ⟨loaded,
      (Dump.parses_readTable files).run_untilEnd_eq_ok.2 ⟨tables, chunks, records, rfl, isLoaded⟩,
      Checked.bind_eq_ok.2 ⟨_, Files.content_eq_ok.2 isReferences, ?_⟩⟩⟩
    exact Dump.parses_readReference.run_untilEnd_eq_ok.2
      ⟨references, chunks', records', rfl, added references loaded⟩

theorem describe_of_load (h : load files stores = .ok db) :
    ∃ tables references, files.Describe tables references := by
  obtain ⟨tables, references, loaded, schemas, others, isLoaded, rfl⟩ := load_eq_ok.1 h
  have placed := placed_empty stores
  obtain ⟨distinct, fresh⟩ := distinct_of_loadTables placed isLoaded
  obtain ⟨_, each⟩ := loadTables_eq_ok placed distinct fresh isLoaded
  rw [names_described] at distinct
  refine ⟨tables, references, schemas, distinct, fun t mem => ?_, others⟩
  obtain ⟨store, _, isRows⟩ := each _ (List.mem_map_of_mem mem)
  obtain ⟨file, entries, chunks, isFile, found, records, _⟩ := Dump.loadRows_eq_ok.1 isRows
  exact ⟨file, _, isFile, found, Dump.exists_rowRecords.1 ⟨entries, chunks, records, rfl⟩⟩

theorem load_of_describe {tables : List (String × List Column)} {references : List Reference}
    (h : files.Describe tables references) (stores : Stores) :
    ∃ db, load files stores = .ok db ∧ db.TakenFrom files tables references := by
  have placed := placed_empty stores
  have fresh : ∀ e ∈ described tables,
      (Database.mk stores .empty []).tables.find? e.1 = none := fun _ _ => rfl
  have distinct := h.distinct
  rw [← names_described] at distinct
  have readable : ∀ e ∈ described tables, ∃ rows, loadRows files e.1 e.2.schema.rowSize = .ok rows := by
    intro e mem
    obtain ⟨t, isTable, rfl⟩ := List.mem_map.1 mem
    obtain ⟨file, bytes, isFile, found, whole⟩ := h.rows t isTable
    obtain ⟨entries, chunks, records, rfl⟩ := Dump.exists_rowRecords.2 whole
    exact ⟨_, Dump.loadRows_eq_ok.2 ⟨file, entries, chunks, isFile, found, records, rfl⟩⟩
  obtain ⟨loaded, isLoaded⟩ := loadTables_of_loadRows placed distinct fresh readable
  obtain ⟨grows, each⟩ := loadTables_eq_ok placed distinct fresh isLoaded
  refine ⟨_, load_eq_ok.2 ⟨tables, references, loaded, h.schemas, h.references, isLoaded, rfl⟩, ?_, ?_, ?_⟩
  · intro name
    rw [← names_described]
    constructor
    · intro mem
      obtain ⟨t, isTable⟩ := SortedMap.mem_keys_iff.1 mem
      exact grows.introduced isTable rfl
    · intro mem
      obtain ⟨e, isEntry, rfl⟩ := List.mem_map.1 mem
      obtain ⟨store, isTable, _⟩ := each e isEntry
      exact SortedMap.mem_keys_iff.2 ⟨_, isTable⟩
  · intro t mem
    obtain ⟨store, isTable, isRows⟩ := each _ (List.mem_map_of_mem mem)
    obtain ⟨file, entries, chunks, isFile, found, records, rows⟩ := Dump.loadRows_eq_ok.1 isRows
    refine ⟨.ofColumns t.2, _, file, entries, chunks, schema_eq_ok isTable, rows_eq_ok isTable,
      Schema.columns_ofColumns t.2, isFile, found, records, fun id => ?_⟩
    rw [rows, RowStore.find?_ofEntries]
  · rw [grows.references, List.nil_append]

end Database

/-! ## Reading -/

namespace Read

variable {α β : Type} {m : Read α} {spec : α → Bytes → Prop}

/-- A reader that stands in a file still does after the read, and not before where it stood. -/
def StaysInside (read : Read α) : Prop :=
  ∀ file r a r', r.Inside file → StateT.run read r = .ok (a, r') →
    r'.Inside file ∧ r.position ≤ r'.position

theorem Takes.staysInside (h : m.Takes spec) : m.StaysInside := by
  intro file r a r' inside ok
  obtain ⟨chunk, passes, _⟩ := h r a r' ok
  refine ⟨inside.passes passes, ?_⟩
  rw [passes.position]
  exact Nat.le_add_right _ _

/-- Each round of the loop over a file reads at least a byte, and the loop ends with the file, so that it
needs no other bound. -/
structure Exhausts (step : β → Read β) : Prop where
  advances : ∀ b, ∀ file r b' r', r.Inside file → StateT.run (step b) r = .ok (b', r') →
    r'.Inside file ∧ r.position < r'.position
  loop : ∀ b, untilEnd step b = (do
    if ← atEnd then return b
    untilEnd step (← step b))

theorem Parses.exhausts {step : β → Read β} {item : α → Bytes → Prop} {next : β → α → Checked β}
    (h : Parses step item next) : Exhausts step where
  advances b file r b' r' inside ok := by
    obtain ⟨chunk, passes, notEmpty⟩ := h.advances b r b' r' ok
    refine ⟨inside.passes passes, ?_⟩
    rw [passes.position]
    exact Nat.lt_add_of_pos_right (List.length_pos_of_ne_nil notEmpty)
  loop := untilEnd_eq h.advances

end Read

/-- Files are loaded exactly if they describe something, and then what they describe is there. Otherwise a
file is missing or corrupt. No read leaves its file, and every loop over a file ends with the file. -/
theorem Database.load_exact (files : Files) (stores : Stores) :
    ((∀ n, (Read.take n).StaysInside) ∧ (∀ count, (Read.number count).StaysInside) ∧
      Read.text.StaysInside) ∧
    (Read.Exhausts (readTable files) ∧ (∀ rowSize, Read.Exhausts (readRow rowSize)) ∧
      Read.Exhausts readReference) ∧
    ((∃ db, load files stores = .ok db) ↔ ∃ tables references, files.Describe tables references) ∧
    (∀ db tables references, load files stores = .ok db → files.Describe tables references →
      db.TakenFrom files tables references) ∧
    ∀ e, load files stores = .error e → e.OfDump := by
  refine ⟨⟨fun n => (Read.takes_take n).staysInside, fun count => (Read.takes_number count).staysInside,
    Read.takes_text.staysInside⟩, ⟨(Dump.parses_readTable files).exhausts,
    fun rowSize => (Dump.parses_readRow rowSize).exhausts, Dump.parses_readReference.exhausts⟩,
    ⟨?_, ?_⟩, ?_, fun e => ofDump_load⟩
  · rintro ⟨db, h⟩
    exact describe_of_load h
  · rintro ⟨tables, references, described⟩
    obtain ⟨db, h, _⟩ := load_of_describe described stores
    exact ⟨db, h⟩
  · intro db tables references h described
    obtain ⟨db', h', taken⟩ := load_of_describe described stores
    cases h.symm.trans h'
    exact taken

/-- A file may list a column twice, mark it with any byte and hold a row twice. -/
example :
    let column := Dump.text "a" ++ [2, 0, 1] ++ Bytes.bigEndian 4 4
    let files := [("schema.dat", Dump.text "t" ++ Bytes.bigEndian 4 2 ++ column ++ column),
      ("t.dat", Bytes.bigEndian 8 5 ++ [0, 7, 0, 0, 0] ++ Bytes.bigEndian 8 5 ++ [0, 9, 0, 0, 0]),
      ("constraints.dat", [])].foldl (fun (files : Files) e => files.insert e.1 e.2) .empty
    (Database.load files []).bind (fun db => return (← db.schema "t", (← db.rows "t").rows.entries)) =
      .ok (.ofColumns [⟨"a", .int, 4, true, false⟩], [(5, [0, 9, 0, 0, 0])]) := by
  decide +kernel

end RelEngine
