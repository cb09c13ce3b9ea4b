import RelEngine.Dump.Load
import RelEngine.Proofs.Dump.Taking
import RelEngine.Proofs.Schema

/-!
The records of a dump, as relations between what a record tells and its bytes. The reader takes exactly
such bytes, and those that are written for a column, table, row or reference are such bytes, if no name has
a zero in it.
-/
namespace RelEngine

namespace Schema

theorem ext_columns {s t : Schema} (h : s.columns = t.columns) : s = t := by
  cases s
  cases t
  cases h
  rfl

/-- The columns of a schema have different names, so adding them one by one gives the schema again. -/
theorem ofColumns_columns (s : Schema) : ofColumns s.columns = s := by
  have added : ∀ (columns : List Column) (start : Schema),
      ((start.columns ++ columns).map (·.name)).Nodup →
      (columns.foldl add start).columns = start.columns ++ columns := by
    intro columns
    induction columns with
    | nil => exact fun start _ => (List.append_nil _).symm
    | cons c columns ih =>
      intro start nodup
      have fresh : c.name ∉ start.names := by
        rw [List.map_append, List.nodup_append] at nodup
        exact fun mem => nodup.2.2 _ mem _ (List.mem_map_of_mem List.mem_cons_self) rfl
      have one := columns_add fresh
      have more := ih (start.add c)
      rw [one, List.append_assoc] at more
      exact more nodup
  apply ext_columns
  exact added s.columns empty s.nodup

end Schema

/-- A dump can hold the names of all columns. -/
def Schema.NoZeros (s : Schema) : Prop := ∀ c ∈ s.columns, NoZero c.name

instance (s : Schema) : Decidable s.NoZeros := inferInstanceAs (Decidable (∀ c ∈ s.columns, _))

namespace Reference

/-- What a dump keeps of a reference. -/
def plain (r : Reference) : Reference := { r with onDelete := .noAction, onUpdate := .noAction }

/-- A dump can hold the names of the reference. -/
structure NoZeros (r : Reference) : Prop where
  childTable : NoZero r.childTable
  childField : NoZero r.childField
  parentTable : NoZero r.parentTable
  parentField : NoZero r.parentField

instance (r : Reference) : Decidable r.NoZeros :=
  decidable_of_iff (NoZero r.childTable ∧ NoZero r.childField ∧ NoZero r.parentTable ∧
    NoZero r.parentField) ⟨fun h => ⟨h.1, h.2.1, h.2.2.1, h.2.2.2⟩, fun h => ⟨h.1, h.2, h.3, h.4⟩⟩

end Reference

namespace Dump

variable {bytes : Bytes} {c : Column} {name : String} {schema : Schema} {rowSize : Nat}
  {columns : List Column} {chunks : List Bytes} {files : Files}

/-- The bytes of a column. A flag is set if its byte is not zero. -/
inductive ColumnRecord : Column → Bytes → Prop where
  | intro {name : String} {size : Nat} (type : DataType) (nullable unique : UInt8)
      (noZero : NoZero name) (small : size < Nat.pow 256 4) :
      ColumnRecord ⟨name, type, size, nullable != 0, unique != 0⟩
        (text name ++ [nullable] ++ [unique] ++ [UInt8.ofNat type.tag] ++ Bytes.bigEndian 4 size)

/-- The bytes of a table: its name, the number of its columns, and these. -/
inductive TableRecord : String × List Column → Bytes → Prop where
  | intro {name : String} {columns : List Column} {chunks : List Bytes} (noZero : NoZero name)
      (small : columns.length < Nat.pow 256 4) (areColumns : List.Forall₂ ColumnRecord columns chunks) :
      TableRecord (name, columns) (text name ++ Bytes.bigEndian 4 columns.length ++ chunks.flatten)

/-- The bytes of a row under its id. -/
inductive RowRecord (rowSize : Nat) : RowId × Bytes → Bytes → Prop where
  | intro {id : RowId} {row : Bytes} (small : id < Nat.pow 256 8) (whole : row.length = rowSize) :
      RowRecord rowSize (id, row) (Bytes.bigEndian 8 id ++ row)

/-- The bytes of a reference, which asks for nothing on a change. -/
inductive ReferenceRecord : Reference → Bytes → Prop where
  | intro {r : Reference} (noZeros : r.NoZeros) : ReferenceRecord r.plain (reference r)

/-! ## What is written -/

theorem length_eq_ok {n : Nat} (h : length n = .ok bytes) :
    n < Nat.pow 256 4 ∧ bytes = Bytes.bigEndian 4 n := by
  rw [length] at h
  split at h
  · next small => exact ⟨small, (Except.ok.inj h).symm⟩
  · cases h

theorem rowId_eq_ok {id : RowId} (h : rowId id = .ok bytes) :
    id < Nat.pow 256 8 ∧ bytes = Bytes.bigEndian 8 id := by
  rw [rowId] at h
  split at h
  · next small => exact ⟨small, (Except.ok.inj h).symm⟩
  · cases h

theorem ColumnRecord.written (h : column c = .ok bytes) (noZero : NoZero c.name) :
    ColumnRecord c bytes := by
  obtain ⟨size, isSize, eq⟩ := Checked.bind_eq_ok.1 h
  obtain ⟨small, rfl⟩ := length_eq_ok isSize
  cases eq
  obtain ⟨name, type, size, nullable, unique⟩ := c
  have set : ∀ b : Bool, ((if b then 1 else 0 : UInt8) != 0) = b := by decide
  have record := ColumnRecord.intro type (if nullable then 1 else 0) (if unique then 1 else 0) noZero small
  rw [set, set] at record
  exact record

theorem TableRecord.written (h : table name schema = .ok bytes) (noZero : NoZero name)
    (noZeros : schema.NoZeros) : TableRecord (name, schema.columns) bytes := by
  obtain ⟨count, isCount, h⟩ := Checked.bind_eq_ok.1 h
  obtain ⟨chunks, areChunks, eq⟩ := Checked.bind_eq_ok.1 h
  obtain ⟨small, rfl⟩ := length_eq_ok isCount
  cases eq
  refine .intro noZero small (forall₂_imp_of_mem (Checked.forall₂_of_mapM areChunks) ?_)
  exact fun c mem chunk isChunk => .written isChunk (noZeros c mem)

theorem RowRecord.written {entry : RowId × Bytes} (h : row entry = .ok bytes)
    (whole : entry.2.length = rowSize) : RowRecord rowSize entry bytes := by
  obtain ⟨id, isId, eq⟩ := Checked.bind_eq_ok.1 h
  obtain ⟨small, rfl⟩ := rowId_eq_ok isId
  cases eq
  exact .intro small whole

/-! ## Columns -/

theorem gives_byte (b : UInt8) : (Read.number 1).Gives [b] (.ok b.toNat) := by
  have same : [b] = Bytes.bigEndian 1 b.toNat := by
    change [b] = [UInt8.ofNat b.toNat]
    rw [UInt8.ofNat_toNat]
  rw [same]
  exact Read.gives_number b.toNat_lt

theorem takes_byte : (Read.number 1).Takes fun n chunk => ∃ b : UInt8, n = b.toNat ∧ chunk = [b] := by
  refine (Read.takes_number 1).weaken ?_
  rintro n chunk ⟨small, rfl⟩
  have below : n < 256 := small
  refine ⟨UInt8.ofNat n, ?_, rfl⟩
  rw [UInt8.toNat_ofNat', Nat.mod_eq_of_lt below]

theorem toNat_bne_zero (b : UInt8) : (b.toNat != 0) = (b != 0) := by
  by_cases isZero : b = 0
  · subst isZero
    rfl
  · rw [bne_iff_ne.2 isZero, bne_iff_ne]
    exact fun eq => isZero (UInt8.toNat_inj.1 eq)

theorem gives_readColumn (h : ColumnRecord c bytes) : readColumn.Gives bytes (.ok c) := by
  obtain ⟨type, nullable, unique, noZero, small⟩ := h
  rw [List.append_assoc, List.append_assoc, List.append_assoc]
  refine (Read.gives_text noZero).bind_ok ?_
  refine (gives_byte nullable).bind_ok ?_
  refine (gives_byte unique).bind_ok ?_
  refine (gives_byte _).bind_ok ?_
  have tag : (UInt8.ofNat type.tag).toNat = type.tag := by cases type <;> rfl
  simp only [tag, DataType.ofTag?_tag, toNat_bne_zero]
  exact (Read.gives_number small).bind_pure (g := fun size => Column.mk _ type size _ _)

theorem takes_readColumn : readColumn.Takes ColumnRecord := by
  refine (Read.takes_text.bind fun name => takes_byte.bind fun nullable => takes_byte.bind fun unique =>
    takes_byte.bind (Q := fun tag c chunk => ∃ type, DataType.ofTag? tag = some type ∧
      ∃ size, c = ⟨name, type, size, nullable != 0, unique != 0⟩ ∧
        size < Nat.pow 256 4 ∧ chunk = Bytes.bigEndian 4 size) fun tag => ?_).weaken ?_
  · cases isType : DataType.ofTag? tag with
    | none => exact Read.takes_corrupt _
    | some type =>
      refine (Read.takes_number 4).bind_pure.weaken ?_
      rintro c chunk ⟨size, rfl, small, rfl⟩
      exact ⟨type, rfl, size, rfl, small, rfl⟩
  · rintro c chunk ⟨name, _, _, rfl, ⟨noZero, rfl⟩, nullable, _, _, rfl, ⟨b₁, rfl, rfl⟩, unique, _, _, rfl,
      ⟨b₂, rfl, rfl⟩, tag, _, _, rfl, ⟨b₃, rfl, rfl⟩, type, isType, size, rfl, small, rfl⟩
    have isTag : b₃ = UInt8.ofNat type.tag := by rw [DataType.tag_of_ofTag? isType, UInt8.ofNat_toNat]
    have record := ColumnRecord.intro type b₁ b₂ noZero small
    rw [List.append_assoc, List.append_assoc, List.append_assoc, ← isTag] at record
    rw [toNat_bne_zero, toNat_bne_zero]
    exact record

theorem gives_readColumns (h : List.Forall₂ ColumnRecord columns chunks) (schema : Schema) :
    (readColumns columns.length schema).Gives chunks.flatten (.ok (columns.foldl Schema.add schema)) := by
  induction h generalizing schema with
  | nil => exact Read.gives_pure schema
  | cons isColumn _ ih =>
    rw [List.flatten_cons, List.length_cons, readColumns]
    exact (gives_readColumn isColumn).bind_ok (ih _)

theorem takes_readColumns (count : Nat) (schema : Schema) :
    (readColumns count schema).Takes fun s chunk => ∃ columns chunks, columns.length = count ∧
      List.Forall₂ ColumnRecord columns chunks ∧ chunk = chunks.flatten ∧
      s = columns.foldl Schema.add schema := by
  induction count generalizing schema with
  | zero =>
    refine (Read.takes_pure schema).weaken ?_
    rintro s chunk ⟨rfl, rfl⟩
    exact ⟨[], [], rfl, .nil, rfl, rfl⟩
  | succ count ih =>
    refine (takes_readColumn.bind fun c => ih (schema.add c)).weaken ?_
    rintro s chunk ⟨c, chunk₁, _, rfl, isColumn, columns, chunks, rfl, areColumns, rfl, rfl⟩
    exact ⟨c :: columns, chunk₁ :: chunks, rfl, .cons isColumn areColumns, rfl, rfl⟩

end Dump

/-! ## Tables -/

/-- Adds a table as its schema is read, with the rows of its file. -/
def Database.loadTable (db : Database) (files : Files) (name : String) (schema : Schema) :
    Checked Database := do
  let some db := db.addTable? name schema | throw (.corruptDump (.tableListedTwice name))
  let rows ← Dump.loadRows files name schema.rowSize
  let t ← db.table name
  return { db with stores := db.stores.update t.store fun _ => rows }

namespace Dump

variable {bytes : Bytes} {rowSize : Nat} {files : Files}

theorem readTable_eq (files : Files) (db : Database) : readTable files db = (do
    let name ← Read.text
    let count ← Read.number 4
    let schema ← readColumns count .empty
    liftM (db.loadTable files name schema)) := by
  rw [readTable]
  refine congrArg (Read.text >>= ·) (funext fun name => ?_)
  refine congrArg (Read.number 4 >>= ·) (funext fun count => ?_)
  refine congrArg (readColumns count .empty >>= ·) (funext fun schema => ?_)
  rw [Database.loadTable]
  cases db.addTable? name schema with
  | none => rfl
  | some db =>
    change (liftM (loadRows files name schema.rowSize) >>= fun rows => liftM (db.table name) >>= _) =
      liftM (loadRows files name schema.rowSize >>= fun rows => db.table name >>= _)
    cases loadRows files name schema.rowSize with
    | error e => rfl
    | ok rows =>
      cases db.table name with
      | error e => rfl
      | ok t => rfl

/-- Reading the file of the schemas is adding one table after the other, each with the rows of its file. -/
theorem parses_readTable (files : Files) :
    Read.Parses (readTable files) TableRecord fun db t => db.loadTable files t.1 (.ofColumns t.2) where
  notEmpty := by
    rintro _ _ ⟨⟩
    simp [text]
  takes db := by
    rw [readTable_eq]
    refine (Read.takes_text.bind fun name => (Read.takes_number 4).bind fun count =>
      (takes_readColumns count .empty).bind fun schema =>
        Read.takes_lift (db.loadTable files name schema)).weaken ?_
    rintro db' chunk ⟨name, _, _, rfl, ⟨noZero, rfl⟩, count, _, _, rfl, ⟨small, rfl⟩, schema, _, _, rfl,
      ⟨columns, chunks, rfl, areColumns, rfl, rfl⟩, isLoaded, rfl⟩
    refine ⟨(name, columns), ?_, isLoaded⟩
    have record := TableRecord.intro noZero small areColumns
    rw [List.append_assoc] at record
    rw [List.append_nil]
    exact record
  gives := by
    rintro _ _ ⟨noZero, small, areColumns⟩ db
    rw [readTable_eq, List.append_assoc]
    refine (Read.gives_text noZero).bind_ok ?_
    refine (Read.gives_number small).bind_ok ?_
    rw [← List.append_nil (List.flatten _)]
    exact (gives_readColumns areColumns .empty).bind_ok (Read.gives_lift _)

/-! ## Rows and references -/

theorem parses_readRow (rowSize : Nat) :
    Read.Parses (readRow rowSize) (RowRecord rowSize) fun rows e => .ok (rows.insert e.1 e.2) where
  notEmpty := by
    rintro _ _ ⟨small, whole⟩ none
    have length := congrArg List.length (List.append_eq_nil_iff.1 none).1
    rw [Bytes.length_bigEndian] at length
    cases length
  takes rows := by
    refine ((Read.takes_number 8).bind fun id => (Read.takes_take rowSize).bind_pure).weaken ?_
    rintro rows' chunk ⟨id, _, _, rfl, ⟨small, rfl⟩, row, rfl, rfl, whole⟩
    exact ⟨(id, row), .intro small whole, rfl⟩
  gives := by
    rintro _ _ ⟨small, whole⟩ rows
    refine (Read.gives_number small).bind_ok ?_
    exact (Read.gives_take whole).bind_pure (g := fun bytes => rows.insert _ bytes)

theorem parses_readReference :
    Read.Parses readReference ReferenceRecord fun db r => .ok (db.addReference r) where
  notEmpty := by
    rintro _ _ ⟨noZeros⟩
    simp [reference, text]
  takes db := by
    refine (Read.takes_text.bind fun childTable => Read.takes_text.bind fun childField =>
      Read.takes_text.bind fun parentTable => Read.takes_text.bind_pure).weaken ?_
    rintro db' chunk ⟨childTable, _, _, rfl, ⟨noZero₁, rfl⟩, childField, _, _, rfl, ⟨noZero₂, rfl⟩,
      parentTable, _, _, rfl, ⟨noZero₃, rfl⟩, parentField, rfl, noZero₄, rfl⟩
    let r : Reference := ⟨childTable, childField, parentTable, parentField, .noAction, .noAction⟩
    have record := ReferenceRecord.intro (r := r) ⟨noZero₁, noZero₂, noZero₃, noZero₄⟩
    rw [reference, List.append_assoc, List.append_assoc] at record
    exact ⟨r, record, rfl⟩
  gives := by
    rintro _ _ ⟨noZeros⟩ db
    rw [reference, List.append_assoc, List.append_assoc]
    refine (Read.gives_text noZeros.childTable).bind_ok ?_
    refine (Read.gives_text noZeros.childField).bind_ok ?_
    refine (Read.gives_text noZeros.parentTable).bind_ok ?_
    exact (Read.gives_text noZeros.parentField).bind_pure
      (g := fun field => db.addReference ⟨_, _, _, field, _, _⟩)

end Dump

end RelEngine
