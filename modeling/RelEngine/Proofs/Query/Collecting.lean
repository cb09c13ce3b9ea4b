import RelEngine.Proofs.Plan.Reading
import RelEngine.Proofs.Query.Opening
import RelEngine.Query.Result

/-!
What a query returns: the rows of the relation that it stands for.
-/
namespace RelEngine

namespace Query

variable {scope : Scope} {items : List SelectItem}

/-! ## The select list -/

theorem outputNames_eq_map {e : NameSource} (h : ∃ q, e.qualifier = some q ∧ FieldName.Plain q) :
    e.outputNames = e.columns.map FieldName.outputName := by
  obtain ⟨q, eq, _⟩ := h
  rw [NameSource.outputNames, NameSource.columns, List.map_map, eq]
  rfl

/-- A selection of everything names the columns of the sources. -/
theorem sourceNames_eq_map (tidy : scope.Tidy) :
    scope.entries.flatMap NameSource.outputNames =
      scope.sourceColumns.map FieldName.outputName := by
  rw [Scope.sourceColumns, List.map_flatMap, List.flatMap_def, List.flatMap_def,
    List.map_congr_left fun e mem => outputNames_eq_map (tidy.qualified e mem)]

theorem unique_outputName (tidy : scope.Tidy) {column : FieldName}
    (mem : column ∈ scope.sourceColumns) :
    Relation.Unique scope.heading column.outputName ∧
      column.isNamed column.outputName = true := by
  obtain ⟨e, he, mem'⟩ := List.mem_flatMap.1 mem
  obtain ⟨q, isQ, plainQ⟩ := tidy.qualified e he
  obtain ⟨f, hf, rfl⟩ := List.mem_map.1 mem'
  rw [isQ] at mem ⊢
  have plain := (tidy.fields e he).2 f hf
  have parsed := FieldName.parse_qualified plainQ plain.1
  refine ⟨tidy.unique_of_parse_qualified parsed mem, ?_⟩
  rw [FieldName.outputName, FieldName.isNamed_of_parse_qualified parsed plain, beq_self_eq_true]

theorem unique_of_mem_outputNames (tidy : scope.Tidy)
    (fields : ∀ name, .field name ∈ items → scope.check name = .ok ())
    (computed : ∀ value name, .computed value name ∈ items → name ∈ scope.computed) :
    ∀ name ∈ scope.outputNames items, Relation.Unique scope.heading name := by
  intro name mem
  obtain ⟨item, hitem, mem⟩ := List.mem_flatMap.1 mem
  cases item with
  | all =>
    simp only [sourceNames_eq_map tidy] at mem
    obtain ⟨column, isSource, rfl⟩ := List.mem_map.1 mem
    exact (unique_outputName tidy isSource).1
  | field other =>
    rw [List.mem_singleton.1 mem]
    exact tidy.unique_of_check (fields other hitem)
  | computed value other =>
    rw [List.mem_singleton.1 mem]
    exact (tidy.computed other (computed value other hitem)).2

/-- The cells of the source columns are the first ones of a row. -/
theorem lookup_sourceColumns (tidy : scope.Tidy) {row : List (Checked Value)}
    (width : row.length = scope.heading.length) :
    (scope.sourceColumns.map FieldName.outputName).map (Relation.lookup scope.heading row) =
      row.take scope.sourceColumns.length := by
  have le : scope.sourceColumns.length ≤ row.length := by
    rw [width, Scope.heading, List.length_append]
    exact Nat.le_add_right _ _
  refine List.ext_getElem (by simp [le]) fun i hi hi' => ?_
  rw [List.length_map, List.length_map] at hi
  rw [List.getElem_map, List.getElem_map, List.getElem_take]
  obtain ⟨unique, named⟩ := unique_outputName tidy (List.getElem_mem hi)
  have inHeading : i < scope.heading.length := width ▸ Nat.lt_of_lt_of_le hi le
  have same : scope.heading[i] = scope.sourceColumns[i] := List.getElem_append_left hi
  refine Relation.lookup_of_unique unique ?_ named
  have mem := List.getElem_mem (l := scope.heading.zip row)
    (show i < (scope.heading.zip row).length by
      rw [List.length_zip, width, Nat.min_self]; exact inHeading)
  rw [List.getElem_zip, same] at mem
  exact mem

theorem selectedCells_eq (tidy : scope.Tidy) {row : List (Checked Value)}
    (width : row.length = scope.heading.length) :
    selectedCells items scope.heading scope.sourceColumns.length row =
      (scope.outputNames items).map (Relation.lookup scope.heading row) := by
  rw [selectedCells, Scope.outputNames, List.map_flatMap]
  congr
  funext item
  cases item with
  | all => rw [sourceNames_eq_map tidy, lookup_sourceColumns tidy width]
  | field name => rfl
  | computed value name => rfl

theorem outputHeading_eq (tidy : scope.Tidy) :
    (outputHeading items scope.heading scope.sourceColumns.length).map FieldName.outputName =
      scope.outputNames items := by
  rw [outputHeading, Scope.outputNames, List.map_flatMap]
  congr
  funext item
  cases item with
  | all =>
    rw [sourceNames_eq_map tidy, Scope.heading, List.take_left, List.map_map]
    rfl
  | field name => rfl
  | computed value name => rfl

/-! ## Reading the selected names -/

section

variable {heading : List FieldName} {names : List String} {record : Record}
  {row : List (Checked Value)}

theorem project_of_mem (record : Record) {name : String} (mem : name ∈ names) :
    record.project names name = record name := by
  rw [Record.project, List.contains_iff_mem.2 mem, if_pos rfl]

/-- A row that is read without an error has the cells of the relation. -/
theorem cells_of_read (shows : Shows heading record row)
    (unique : ∀ name ∈ names, Relation.Unique heading name) {values : List Value}
    (h : names.mapM (record.project names) = .ok values) :
    names.map (Relation.lookup heading row) = values.map .ok := by
  rw [Checked.mapM_eq_ok] at h
  apply Checked.eq_map_ok
  rw [← Checked.map_toOption_map_ok values, ← h, List.map_map, List.map_map]
  refine List.map_congr_left fun name mem => ?_
  rw [Function.comp_apply, Function.comp_apply, project_of_mem record mem]
  exact (shows.agree name (unique name mem)).symm

/-- If reading a row fails, one of its cells in the relation is an error. -/
theorem error_of_read (shows : Shows heading record row)
    (unique : ∀ name ∈ names, Relation.Unique heading name) {e : Error}
    (h : names.mapM (record.project names) = .error e) : ∃ e, .error e ∈ row := by
  obtain ⟨name, mem, bad⟩ := Checked.mapM_eq_error h
  have same := shows.agree name (unique name mem)
  rw [← project_of_mem record mem, bad] at same
  have isCell := Relation.lookup_mem shows.width (unique name mem).any
  cases cell : Relation.lookup heading row name with
  | ok v =>
    rw [cell] at same
    exact nomatch same
  | error e =>
    rw [cell] at isCell
    exact ⟨e, isCell⟩

theorem rows_of_reads {records : List Record} {rows : List (List (Checked Value))}
    (shows : List.Forall₂ (Shows heading) records rows)
    (unique : ∀ name ∈ names, Relation.Unique heading name) {values : List (List Value)}
    (h : (records.map fun record => record.project names).map (fun record => names.mapM record) =
      values.map .ok) :
    rows.map (fun row => names.map (Relation.lookup heading row)) = values.map (·.map .ok) := by
  induction shows generalizing values with
  | nil =>
    cases values with
    | nil => rfl
    | cons v values => exact nomatch h
  | cons head tail ih =>
    cases values with
    | nil => exact nomatch h
    | cons v values =>
      rw [List.map_cons, List.map_cons, List.map_cons, List.cons.injEq] at h
      rw [List.map_cons, List.map_cons, cells_of_read head unique h.1, ih h.2]

end

end Query

/-- An opened query returns the rows of the relation that the query stands for, under the names of the
relation's columns. This is so whenever reading succeeds; and if it fails, a condition or a computed
column of the relation failed on some row. -/
theorem Database.collect_eq_relation {db : Database} {q : Query} {opened : OpenQuery}
    (plain : q.Plain db) (opens : db.query q = .ok opened) :
    ∃ r, q.relation db = .ok r ∧ opened.fields = r.heading.map FieldName.outputName ∧
      ((∃ rows, opened.collect db.stores = .ok rows ∧ r.rows = rows.map (·.map .ok)) ∨
        r.Failed ∧ ∃ e, opened.collect db.stores = .error e) := by
  obtain ⟨items, sources, joins, filter⟩ := q
  rw [Database.query, Query.openOn] at opens
  split at opens
  · cases opens
  obtain ⟨⟨first, cursors⟩, isOpened, opens⟩ := Checked.bind_eq_ok.1 opens
  obtain ⟨scope, isChecked, opens⟩ := Checked.bind_eq_ok.1 opens
  obtain ⟨child, isBuilt, opens⟩ := Checked.bind_eq_ok.1 opens
  obtain ⟨cursor, isRewound, eq⟩ := Checked.bind_eq_ok.1 opens
  cases eq
  obtain ⟨start, joined, isStart, isJoined, width, stage, fields, own⟩ :=
    Query.stage_of_build plain isOpened isChecked isBuilt
  generalize isLast : Query.restrictRelation (items.foldl Query.extendRelation joined) filter = last
    at stage
  have mirrors : Mirrors db.stores child.plan last := stage.rows
  have unique := Query.unique_of_mem_outputNames stage.tidy fields own
  have relation : Query.relation db ⟨items, sources, joins, filter⟩ = .ok
      { heading := Query.outputHeading items scope.heading scope.sourceColumns.length
        rows := last.rows.map
          (Query.selectedCells items scope.heading scope.sourceColumns.length)
        log := last.log } := by
    simp only [Query.relation, isStart, Checked.ok_bind, Query.relationOver, isJoined, isLast, width,
      stage.heading]
    rfl
  refine ⟨_, relation, (Query.outputHeading_eq stage.tidy).symm, ?_⟩
  have shows := stage.heading ▸ mirrors.rows
  have cells : last.rows.map
      (Query.selectedCells items scope.heading scope.sourceColumns.length) =
        last.rows.map fun row =>
          (scope.outputNames items).map (Relation.lookup scope.heading row) := by
    refine List.map_congr_left fun row mem => Query.selectedCells_eq stage.tidy ?_
    obtain ⟨record, _, shows⟩ := exists_of_mem_left shows.flip mem
    exact shows.width
  generalize scope.outputNames items = names at unique cells isRewound
  rcases (child.project names).rewound_reads db.stores (fun record => names.mapM record) with
    ⟨e, _, broken⟩ | ⟨start, rewound, reads⟩
  · rw [isRewound] at broken
    cases broken
  rw [isRewound] at rewound
  cases rewound
  have asReads : OpenQuery.read ⟨names, cursor⟩ db.stores =
      cursor.readAll db.stores fun c => names.mapM (c.read db.stores) := rfl
  rw [OpenQuery.collect, asReads]
  generalize cursor.readAll db.stores (fun c => names.mapM (c.read db.stores)) = reading at reads
  cases reads with
  | @all values finish eq _ =>
    refine .inl ⟨values, rfl, ?_⟩
    rw [cells]
    exact Query.rows_of_reads shows unique eq
  | @part values e finish _ cause =>
    refine .inr ⟨?_, e, rfl⟩
    rcases cause with cause | bad
    · exact mirrors.fails e cause
    · obtain ⟨projected, hidden, bad⟩ := List.mem_map.1 bad
      obtain ⟨record, mem, rfl⟩ := List.mem_map.1 hidden
      obtain ⟨row, mem, shows⟩ := exists_of_mem_left shows mem
      obtain ⟨e, isCell⟩ := Query.error_of_read shows unique bad
      exact mirrors.logged row mem e isCell

/-- Two tables with one integer column and one row each. -/
def Database.twoTables : Database where
  stores := [(RowStore.empty.allocate [0, 1, 0, 0, 0]).1, (RowStore.empty.allocate [0, 2, 0, 0, 0]).1]
  tables := (SortedMap.empty.insert "t" ⟨.ofColumns [.plain "a" .int 0], 0⟩).insert "u"
    ⟨.ofColumns [.plain "b" .int 0], 1⟩
  references := []

/-- The rows of one table without a match in the other, with a computed column. -/
def Query.unmatched : Query where
  items := [.all, .computed (.apply .plus [.field "a", .const (some (.int 1))]) "c"]
  sources := [.table "t" none]
  joins := [⟨.left, "u", some "v", .apply .eq [.field "t.a", .field "v.b"]⟩]
  filter := some (.apply .is [.field "b", .const none])

theorem Database.collect_unmatched :
    ∃ opened r, Query.unmatched.Plain .twoTables ∧
      Database.twoTables.query .unmatched = .ok opened ∧
      Query.unmatched.relation .twoTables = .ok r ∧
      opened.fields = r.heading.map FieldName.outputName ∧
      ((∃ rows, opened.collect twoTables.stores = .ok rows ∧ r.rows = rows.map (·.map .ok)) ∨
        r.Failed ∧ ∃ e, opened.collect twoTables.stores = .error e) := by
  have plain : Query.unmatched.Plain .twoTables := by
    refine ⟨?_, ?_, ?_⟩
    · exact List.forall_mem_singleton.2 ⟨"t", none, rfl, by decide +kernel⟩
    · exact List.forall_mem_singleton.2 (by decide +kernel)
    · intro value name mem
      rcases List.mem_cons.1 mem with eq | mem
      · exact nomatch eq
      · cases List.mem_singleton.1 mem
        decide +kernel
  have opens : (Database.twoTables.query .unmatched).toOption.isSome = true := by decide +kernel
  obtain ⟨opened, isOpened⟩ := Option.isSome_iff_exists.1 opens
  rw [Checked.toOption_eq_some] at isOpened
  obtain ⟨r, relation, fields, rows⟩ := Database.collect_eq_relation plain isOpened
  exact ⟨opened, r, plain, isOpened, relation, fields, rows⟩

end RelEngine
