import RelEngine.Proofs.Dump.RoundTrip
import RelEngine.Proofs.Statement.Alike

/-!
What statements do on a database that was dumped and loaded again. The files hold no more of a reference
than the four names, so on the loaded database every reference lets nothing pass. Apart from that, and from
where the ids of new rows begin, it behaves as the one that was dumped.
-/
namespace RelEngine

/-- Ids below both marks are the same, and the others are counted from the marks. -/
def RowStore.Renumbered (mark mark' id id' : Nat) : Prop :=
  id < mark ∧ id < mark' ∧ id' = id ∨ ∃ k, id = mark + k ∧ id' = mark' + k

theorem RowStore.biUnique_renumbered (mark mark' : Nat) :
    Relator.BiUnique (RowStore.Renumbered mark mark') := by
  constructor
  · rintro a b c (⟨_, below, rfl⟩ | ⟨k, rfl, rfl⟩) (⟨_, below', same⟩ | ⟨j, rfl, same⟩) <;> omega
  · rintro a b c (⟨below, _, rfl⟩ | ⟨k, rfl, rfl⟩) (⟨below', _, same⟩ | ⟨j, same, rfl⟩) <;> omega

namespace Database

variable {fits : String → Bool} {db db' : Database} {files : Files} {stores : Stores} {s : Statement}
  {consulted : Reference → RowChange → Prop} {references : List Reference}

/-- Where the ids of new rows of the table begin. -/
def mark (db : Database) (name : String) : RowId :=
  match db.tables.find? name with
  | some t => (db.stores.rowsAt t.store).nextId
  | none => 0

/-- The statement has the same outcome on both databases, and afterwards they have the same tables with the
same rows. Rows that were there before keep their ids; the ids of new ones are counted from where they
begin. -/
structure SameRun (s : Statement) (db db' : Database) : Prop where
  outcome : (db'.execute s).1 = (db.execute s).1
  schemas : ∀ name, (db'.execute s).2.schema name = (db.execute s).2.schema name
  rows : ∀ name rows, (db.execute s).2.rows name = .ok rows → ∃ rows',
    (db'.execute s).2.rows name = .ok rows' ∧
      List.Forall₂
        (fun e e' => RowStore.Renumbered (db.mark name) (db'.mark name) e.1 e'.1 ∧ e'.2 = e.2)
        rows.rows.entries rows'.rows.entries

/-- Each table has the same rows under the same ids. -/
def KeepsRows (db db' : Database) : Prop :=
  ∀ name rows, db.rows name = .ok rows → ∃ rows', db'.rows name = .ok rows' ∧ rows'.rows = rows.rows

theorem mark_eq {name : String} {t : Table} (found : db.tables.find? name = some t) :
    db.mark name = (db.stores.rowsAt t.store).nextId := by
  rw [mark, found]

theorem mark_eq_zero {name : String} (isAbsent : db.tables.find? name = none) : db.mark name = 0 := by
  rw [mark, isAbsent]

theorem Alike.sameRun
    (h : Alike consulted (fun name => RowStore.Renumbered (db.mark name) (db'.mark name)) db db')
    (consults : ∀ r change, s.Consults r change → consulted r change) : SameRun s db db' := by
  have fresh : ∀ name, db.tables.find? name = none → ∀ k,
      RowStore.Renumbered (db.mark name) (db'.mark name) k k := by
    intro name isAbsent k
    rw [mark_eq_zero isAbsent, mark_eq_zero (h.absent isAbsent)]
    exact .inr ⟨k, (Nat.zero_add k).symm, (Nat.zero_add k).symm⟩
  obtain ⟨outcome, after⟩ := h.agree_execute consults fresh
  refine ⟨outcome, after.schema_eq, fun name rows isRows => ?_⟩
  obtain ⟨t, isTable, eq⟩ := Checked.bind_eq_ok.1 isRows
  cases eq
  obtain ⟨t', found', _, paired⟩ := after.tables (table_eq_ok.1 isTable)
  exact ⟨_, rows_eq_ok found', paired.entries⟩

/-- A database with the tables of a loaded one, and references that match its. -/
theorem LoadedFrom.alike (loaded : db.LoadedFrom files db') (placed : db.Placed) (kept : db.KeepsRows db')
    (matching : List.Forall₂ (fun r r' => r.Matches (consulted r) r') references db'.references) :
    Alike consulted (fun name => RowStore.Renumbered (db.mark name) (db'.mark name))
      { db with references } db' where
  placed := placed.withReferences references
  placed' := loaded.placed
  one name := RowStore.biUnique_renumbered _ _
  absent {name} isAbsent := by
    cases found : db'.tables.find? name with
    | none => rfl
    | some t =>
      have isName : name ∈ db'.tableNames := SortedMap.mem_keys_iff.2 ⟨t, found⟩
      rw [loaded.names] at isName
      obtain ⟨u, isTable⟩ := SortedMap.mem_keys_iff.1 isName
      cases isTable.symm.trans isAbsent
  tables {name t} isTable := by
    change db.tables.find? name = some t at isTable
    obtain ⟨store, isTable', _⟩ := loaded.tables isTable
    obtain ⟨rows', isRows', same⟩ := kept name _ (rows_eq_ok isTable)
    cases (rows_eq_ok isTable').symm.trans isRows'
    refine ⟨_, isTable', rfl, ?_, fun k => ?_⟩
    · rw [same, List.forall₂_same]
      intro e mem
      refine ⟨.inl ⟨?_, ?_, rfl⟩, rfl⟩
      · rw [mark_eq isTable]
        exact (db.stores.rowsAt t.store).below e mem
      · rw [mark_eq isTable']
        exact (db'.stores.rowsAt store).below e (same ▸ mem)
    · refine .inr ⟨k, ?_, ?_⟩
      · rw [mark_eq isTable]
      · rw [mark_eq isTable']
  references := matching

/-- What a reference has after it was loaded blocks every change. -/
theorem matches_plain {r : Reference} {consulted : RowChange → Prop}
    (strict : ∀ change, consulted change → r.onChange change = .noAction) :
    r.Matches consulted r.plain := by
  refine ⟨rfl, rfl, rfl, rfl, fun change asked => ?_⟩
  have blocks : r.plain.blocks change = true := by
    cases change with
    | update => rfl
    | delete => rfl
  rw [blocks, Reference.blocks, strict change asked]
  rfl

theorem Reached.loadedFrom (reached : db.Reached fun _ _ => True)
    (columns : ∀ e ∈ db.tables.entries, e.2.schema.NoZeros) (dumped : db.dump fits = .ok files)
    (loaded : load files stores = .ok db') : db.Placed ∧ db.LoadedFrom files db' := by
  have declared := reached.weaken fun _ s _ => s.declares_true
  obtain ⟨parts, isDump⟩ := dump_eq_ok dumped
  have references := noZeros_of_connected declared.connected dumped columns
  exact ⟨declared.placed, Database.loadedFrom isDump columns references loaded⟩

/-- If a database is loaded from its dump with the rows of every table, each statement does on it what it
does on the original with all references made strict. This is what it does on the original itself, if the
statement consults only references that let no change of the kind pass. -/
theorem Reached.execute_reloaded (reached : db.Reached fun _ _ => True)
    (columns : ∀ e ∈ db.tables.entries, e.2.schema.NoZeros) (dumped : db.dump fits = .ok files)
    (loaded : load files stores = .ok db') (kept : db.KeepsRows db') (s : Statement) :
    SameRun s { db with references := db.references.map Reference.plain } db' ∧
      ((∀ r ∈ db.references, ∀ change, s.Consults r change → r.onChange change = .noAction) →
        SameRun s db db') := by
  obtain ⟨placed, result⟩ := Reached.loadedFrom reached columns dumped loaded
  constructor
  · have matching : List.Forall₂ (fun r r' => Reference.Matches (s.Consults r) r r')
        (db.references.map Reference.plain) db'.references := by
      rw [result.references, List.forall₂_same]
      exact fun r _ => .refl _ r
    exact (result.alike placed kept matching).sameRun fun _ _ consults => consults
  · intro strict
    have matching : List.Forall₂ (fun r r' => Reference.Matches (s.Consults r) r r') db.references
        db'.references := by
      rw [result.references, List.forall₂_map_right_iff, List.forall₂_same]
      exact fun r mem => matches_plain (strict r mem)
    exact (result.alike placed kept matching).sameRun fun _ _ consults => consults

/-- If all references were enforced already, the loaded database shows after any number of statements what
the original would show. -/
theorem Reached.executeAll_reloaded (reached : db.Reached fun _ _ => True)
    (columns : ∀ e ∈ db.tables.entries, e.2.schema.NoZeros) (dumped : db.dump fits = .ok files)
    (loaded : load files stores = .ok db') (kept : db.KeepsRows db')
    (enforced : ∀ r ∈ db.references, r.Enforced) (statements : List Statement) :
    (db'.executeAll statements).1 = (db.executeAll statements).1 ∧
      ∀ name, (db'.executeAll statements).2.listRows name =
        (db.executeAll statements).2.listRows name := by
  obtain ⟨placed, result⟩ := Reached.loadedFrom reached columns dumped loaded
  have matching : List.Forall₂ (fun r r' => Reference.Matches (fun _ => True) r r') db.references
      db'.references := by
    rw [result.references, List.forall₂_map_right_iff, List.forall₂_same]
    intro r mem
    apply matches_plain
    intro change _
    cases change with
    | update => exact (enforced r mem).2
    | delete => exact (enforced r mem).1
  have alike := result.alike placed kept matching
  obtain ⟨outcomes, _, after⟩ := alike.executeAll statements fun _ _ _ _ _ => trivial
  exact ⟨outcomes, after.listRows_eq⟩

theorem Restored.keepsRows (h : db.Restored db') : db.KeepsRows db' := by
  intro name rows isRows
  obtain ⟨t, isTable, _⟩ := Checked.bind_eq_ok.1 isRows
  have mem : name ∈ db.tableNames := SortedMap.mem_keys_iff.2 ⟨t, table_eq_ok.1 isTable⟩
  obtain ⟨_, _, rows', _, _, isOwn, isRows', same, _⟩ := h.tables name mem
  cases isRows.symm.trans isOwn
  exact ⟨rows', isRows', same⟩

/-- A row goes into the table whose only row was removed before the dump. -/
theorem execute_reloaded_afterDelete :
    ∃ files db', afterDelete.dump = .ok files ∧ load files afterDelete.stores = .ok db' ∧
      SameRun (.insert ⟨"c", none, [[.const (some (.int 2))]]⟩) afterDelete db' := by
  have isDumped : afterDelete.dump.toOption.isSome = true := by decide +kernel
  obtain ⟨files, dumped⟩ := Option.isSome_iff_exists.1 isDumped
  rw [Checked.toOption_eq_some] at dumped
  obtain ⟨db', loaded, restored⟩ := load_of_dump dumped (by decide +kernel) (by decide +kernel)
    (by decide +kernel) (by decide +kernel) afterDelete.stores
  refine ⟨files, db', dumped, loaded, ?_⟩
  have reached : afterDelete.Reached fun _ _ => True := reached_afterAll fun _ _ _ => trivial
  exact (Reached.execute_reloaded reached (by decide +kernel) dumped loaded restored.keepsRows _).2
    fun _ _ _ consults => consults.elim

/-- Two tables with a reference that lets parents go. -/
def cascading : Database := afterAll
  [.createTable ⟨"p", [.plain "id" .int 0], []⟩,
    .createTable ⟨"c", [.plain "ref" .int 0], [⟨"ref", "p", "id", .cascade, .noAction⟩]⟩,
    .insert ⟨"p", none, [[.const (some (.int 1))]]⟩,
    .insert ⟨"c", none, [[.const (some (.int 1))]]⟩]

/-- After it was loaded the reference no longer lets them go. -/
theorem cascading_not_reloaded :
    cascading.Reached (fun _ _ => True) ∧
      ∃ files db', cascading.dump = .ok files ∧ load files cascading.stores = .ok db' ∧
        cascading.KeepsRows db' ∧ (cascading.execute (.delete ⟨"p", none⟩)).1 = .ok () ∧
        (db'.execute (.delete ⟨"p", none⟩)).1 = .error (.foreignKeyViolation "c" "ref") := by
  refine ⟨reached_afterAll fun _ _ _ => trivial, ?_⟩
  have isDumped : cascading.dump.toOption.isSome = true := by decide +kernel
  obtain ⟨files, dumped⟩ := Option.isSome_iff_exists.1 isDumped
  rw [Checked.toOption_eq_some] at dumped
  obtain ⟨db', loaded, restored⟩ := load_of_dump dumped (by decide +kernel) (by decide +kernel)
    (by decide +kernel) (by decide +kernel) cascading.stores
  have refused : cascading.reloaded.map (fun db => (db.execute (.delete ⟨"p", none⟩)).1) =
      .ok (.error (.foreignKeyViolation "c" "ref")) := by decide +kernel
  rw [reloaded, dumped, Checked.ok_bind, loaded] at refused
  exact ⟨files, db', dumped, loaded, restored.keepsRows, by decide +kernel, Except.ok.inj refused⟩

end Database

end RelEngine
