import RelEngine.Proofs.Parallel
import RelEngine.Proofs.Query.Collecting
import RelEngine.Proofs.Query.Results

/-!
Sources side by side: what `SELECT *` returns from a list of tables and of queries in the place of tables.

Its rows are made of one row of each source, the first source in the outer loop. A row of the product is
read name by name, and a name is read from the first source that answers to it. So this is so only as
long as no source answers to a name that a later one reports; opening such a query does not refuse it.
-/
namespace RelEngine

/-- All choices of one row from each list, side by side, the first list in the outer loop. -/
def crossRows : List (List (List Value)) → List (List Value)
  | [] => [[]]
  | rows :: rest => rows.flatMap fun row => (crossRows rest).map (row ++ ·)

/-- The query that reads a source on its own. -/
def FromItem.alone : FromItem Query → Query
  | .table name alias? => ⟨[.all], [.table name alias?], [], none⟩
  | .query q => q

/-- A source has something to show under a name: a table under the names of its columns, bare or
qualified, a query in place of a table under the names that it reports. -/
def FromItem.answers (db : Database) (name : String) : FromItem Query → Bool
  | .table t alias? => (db.view t alias?).toOption.any (·.has name)
  | .query q => (db.query q).toOption.any (·.fields.contains name)

/-- The first source answers to a name that the second one reports. -/
def FromItem.hides (db : Database) (first second : FromItem Query) : Bool :=
  (db.query second.alone).toOption.any fun part => part.fields.any (first.answers db ·)

variable {stores : Stores}

/-! ## Names that can be read -/

namespace Plan

theorem has_of_readsInner {outer inner : Plan} {flipped : Bool} {name : String}
    (h : readsInner outer inner flipped name = true) : inner.has name = true := by
  rw [readsInner, Scan.readsInner] at h
  cases flipped with
  | true => exact h
  | false => exact (Bool.and_eq_true_iff.1 h).2

/-- A name that has a value in a row is one of the plan's names. -/
theorem has_of_read {name : String} {v : Value} :
    (plan : Plan) → {record : Record} → record ∈ plan.rows stores → record name = .ok v →
      plan.has name = true
  | .table view, record, mem, value => by
    obtain ⟨id, _, rfl⟩ := List.mem_map.1 mem
    obtain ⟨c, resolved, _⟩ := Checked.bind_eq_ok.1 value
    change (view.local? name).isSome = true
    rw [TableView.resolve] at resolved
    cases isLocal : view.local? name with
    | some c => rfl
    | none =>
      rw [isLocal] at resolved
      cases resolved
  | .product left right, record, mem, value => by
    obtain ⟨l, ml, mem⟩ := List.mem_flatMap.1 mem
    obtain ⟨r, mr, rfl⟩ := List.mem_map.1 mem
    change (left.has name || right.has name) = true
    cases here : left.has name with
    | true => rfl
    | false =>
      rw [Record.pair, here] at value
      exact right.has_of_read mr value
  | .select child predicate, record, mem, value =>
    child.has_of_read (List.mem_filter.1 mem).1 value
  | .join outer inner predicate flipped, record, mem, value => by
    obtain ⟨o, mo, mem⟩ := List.mem_flatMap.1 mem
    have isJoin : ∃ i, record = Record.join (readsInner outer inner flipped) o i := by
      rw [joinedRows] at mem
      split at mem
      · exact ⟨none, List.mem_singleton.1 mem⟩
      · obtain ⟨i, _, rfl⟩ := List.mem_map.1 (List.mem_filter.1 mem).1
        exact ⟨some i, rfl⟩
    obtain ⟨i, rfl⟩ := isJoin
    change (outer.has name || inner.has name) = true
    cases fromInner : readsInner outer inner flipped name with
    | true =>
      rw [has_of_readsInner fromInner, Bool.or_true]
    | false =>
      simp only [Record.join, fromInner, Bool.false_eq_true, ↓reduceIte] at value
      rw [outer.has_of_read mo value, Bool.true_or]
  | .extend child value other, record, mem, isValue => by
    obtain ⟨old, isOld, rfl⟩ := List.mem_map.1 mem
    change (name == other || child.has name) = true
    cases same : name == other with
    | true => rfl
    | false =>
      rw [Record.extend, same] at isValue
      exact child.has_of_read isOld isValue
  | .single value other, record, mem, isValue => by
    rw [List.mem_singleton.1 mem] at isValue
    change (name == other) = true
    cases same : name == other with
    | true => rfl
    | false =>
      rw [Record.extend, same] at isValue
      cases isValue
  | .project child fields, record, mem, value => by
    obtain ⟨old, isOld, rfl⟩ := List.mem_map.1 mem
    change (fields.contains name && child.has name) = true
    cases shown : fields.contains name with
    | false =>
      rw [Record.project, shown] at value
      cases value
    | true =>
      rw [Record.project, shown] at value
      exact child.has_of_read isOld value

end Plan

/-! ## Reading to the end without an error -/

/-- If no error stopped a reading, none is on its way. -/
theorem Cursor.follows_of_readOn {α : Type} {plan : Plan} {s : plan.State} {records : List Record}
    {fails : Error → Prop} {row : Cursor → Checked α} {fuel : Nat}
    (h : Follows (plan.scan.next stores) (plan.scan.read stores) fails s records)
    (enough : records.length < fuel) (complete : (readOn stores row fuel ⟨plan, s⟩).stopped = none) :
    Follows (plan.scan.next stores) (plan.scan.read stores) (fun _ => False) s records := by
  induction h generalizing fuel with
  | done last stays => exact .done last stays
  | @row s t rest moved _ ih =>
    obtain ⟨fuel, rfl⟩ := Nat.exists_eq_succ_of_ne_zero (Nat.ne_zero_of_lt enough)
    simp only [readOn, next, step, moved] at complete
    cases value : row ⟨plan, t⟩ with
    | error e =>
      rw [value] at complete
      cases complete
    | ok v =>
      rw [value] at complete
      exact .row moved (ih (Nat.lt_of_succ_lt_succ enough) complete)
  | failed broken _ =>
    obtain ⟨fuel, rfl⟩ := Nat.exists_eq_succ_of_ne_zero (Nat.ne_zero_of_lt enough)
    simp only [readOn, next, step, broken] at complete
    cases complete

theorem OpenQuery.stopped_of_collect {opened : OpenQuery} {rows : List (List Value)}
    (h : opened.collect stores = .ok rows) : (opened.read stores).stopped = none := by
  rw [OpenQuery.collect] at h
  cases stopped : (opened.read stores).stopped with
  | none => rfl
  | some e =>
    rw [stopped] at h
    cases h

/-- Reading the fields of every row gives these values, and nothing fails on the way. -/
structure Plan.Gives (stores : Stores) (plan : Plan) (fields : List String)
    (rows : List (List Value)) : Prop where
  lists : plan.scan.Lists stores (plan.rows stores) fun _ => False
  values : List.Forall₂ (fun record row => fields.mapM record = .ok row) (plan.rows stores) rows

theorem Record.mapM_congr {fields : List String} {record record' : Record}
    (h : ∀ name ∈ fields, record name = record' name) : fields.mapM record = fields.mapM record' :=
  Checked.mapM_eq_of_forall₂ (List.forall₂_same.2 fun name mem => h name mem)

theorem Record.mapM_project (record : Record) (fields : List String) :
    fields.mapM (record.project fields) = fields.mapM record :=
  Record.mapM_congr fun name mem => by rw [Record.project, List.contains_iff_mem.2 mem, if_pos rfl]

namespace Plan.Gives

variable {left right : Plan} {fields fields' : List String} {rows rows' : List (List Value)}

theorem of_collect {c start : Cursor} (h : c.rewound stores = .ok start)
    (collected : (OpenQuery.mk fields start).collect stores = .ok rows) :
    start.plan.Gives stores fields rows := by
  refine ⟨?_, ?_⟩
  · obtain ⟨plan, s⟩ := c
    cases plan.lists stores with
    | failed e broken _ =>
      obtain ⟨t, back⟩ := broken s
      simp only [Cursor.rewound, Cursor.rewind, Cursor.step, back] at h
      cases h
    | ready first rewinds follows =>
      simp only [Cursor.rewound, Cursor.rewind, Cursor.step, rewinds] at h
      cases h
      have complete := OpenQuery.stopped_of_collect collected
      exact .ready first rewinds
        (Cursor.follows_of_readOn follows (Nat.lt_succ_of_le (plan.length_rows_le stores)) complete)
  · rw [Cursor.plan_of_rewound h]
    rcases OpenQuery.collect_of_rewound (c.plan.lists stores) h fields with
      ⟨_, again, eq⟩ | ⟨e, failed, _⟩
    · cases collected.symm.trans again
      exact Checked.map_eq_map_ok.1 eq
    · cases collected.symm.trans failed

theorem project {child : Plan} (h : child.Gives stores fields rows) :
    (Plan.project child fields).Gives stores fields rows := by
  refine ⟨h.lists.project, ?_⟩
  rw [Plan.rows, List.forall₂_map_left_iff]
  exact h.values.imp fun record row eq => (Record.mapM_project record fields).trans eq

theorem of_project {child : Plan} (lists : child.scan.Lists stores (child.rows stores) fun _ => False)
    (h : (Plan.project child fields).Gives stores fields rows) : child.Gives stores fields rows := by
  refine ⟨lists, ?_⟩
  have values := h.values
  rw [Plan.rows, List.forall₂_map_left_iff] at values
  exact values.imp fun record row eq => (Record.mapM_project record fields).symm.trans eq

theorem collect_eq_ok {child start : Cursor} (h : child.plan.Gives stores fields rows)
    (rewound : (child.project fields).rewound stores = .ok start) :
    (OpenQuery.mk fields start).collect stores = .ok rows := by
  have gives := h.project
  have eq := Checked.map_eq_map_ok.2 gives.values
  rcases OpenQuery.collect_of_rewound gives.lists rewound fields with
    ⟨_, collected, same⟩ | ⟨e, _, cause | bad⟩
  · have injective : Function.Injective (Except.ok : List Value → Checked (List Value)) :=
      fun _ _ => Except.ok.inj
    rw [collected, injective.list_map (eq.symm.trans same)]
  · exact cause.elim
  · have bad : .error e ∈ ((Plan.project child.plan fields).rows stores).map
      fun record => fields.mapM record := bad
    rw [eq] at bad
    obtain ⟨_, _, eq⟩ := List.mem_map.1 bad
    cases eq

/-- The fields of both sides, as long as the left side does not answer to those of the right one. -/
theorem product (hl : left.Gives stores fields rows) (hr : right.Gives stores fields' rows')
    (free : ∀ name ∈ fields', left.has name = false) :
    (Plan.product left right).Gives stores (fields ++ fields')
      (rows.flatMap fun row => rows'.map (row ++ ·)) := by
  refine ⟨hl.lists.product hr.lists, ?_⟩
  have lefts := forall₂_imp_of_mem (S := fun record row => fields.mapM record = .ok row ∧
    ∀ name ∈ fields, left.has name = true) hl.values fun record mem row eq => by
      refine ⟨eq, fun name isField => ?_⟩
      obtain ⟨v, _, value⟩ := exists_of_mem_left (Checked.forall₂_of_mapM eq) isField
      exact left.has_of_read mem value
  refine List.rel_flatMap lefts fun l row ⟨isRow, here⟩ => ?_
  refine List.rel_map (fun r row' isRow' => ?_) hr.values
  have fromLeft : fields.mapM (Record.pair left.has l r) = .ok row :=
    (Record.mapM_congr fun name mem => by rw [Record.pair, here name mem, if_pos rfl]).trans isRow
  have fromRight : fields'.mapM (Record.pair left.has l r) = .ok row' :=
    (Record.mapM_congr fun name mem => by
      rw [Record.pair, free name mem, if_neg Bool.false_ne_true]).trans isRow'
  rw [List.mapM_append, fromLeft, fromRight]
  rfl

end Plan.Gives

namespace Query

variable {db : Database} {scope scope' : Scope}

/-! ## The sources of a query -/

/-- A source of a query: what it is on its own, and the cursor that the product of the sources reads. -/
structure Part where
  alone : OpenQuery
  cursor : Cursor

/-- What is needed of a source to find its rows in a product. -/
structure Part.Of (db : Database) (source : FromItem Query) (part : Part) : Prop where
  opens : db.query source.alone = .ok part.alone
  gives : ∀ rows, part.alone.collect db.stores = .ok rows →
    part.cursor.plan.Gives db.stores part.alone.fields rows
  answers : ∀ name, part.cursor.has name = true → source.answers db name = true

theorem outputNames_all (scope : Scope) :
    scope.outputNames [.all] = scope.entries.flatMap NameSource.outputNames :=
  List.flatMap_singleton ..

/-- A table that can be added to a scope can be added to an empty one. -/
theorem addTable_empty {name : String} {alias? : Option String} {view : TableView}
    (isView : db.view name alias? = .ok view) (h : scope.addTable db name alias? = .ok scope') :
    Scope.empty.addTable db name alias? =
      .ok ⟨[⟨some view.qualifier, view.schema.names⟩], []⟩ := by
  obtain ⟨table, isTable, eq⟩ := Checked.bind_eq_ok.1 isView
  cases eq
  have isSchema : db.schema name = .ok table.schema := by rw [Database.schema, isTable]; rfl
  rw [Scope.addTable, isSchema, Checked.ok_bind] at h ⊢
  cases collision : alias?.filter fun a => a != name && db.has a with
  | some other =>
    rw [collision] at h
    cases h
  | none => rfl

theorem part_of_table {name : String} {alias? : Option String} {view : TableView}
    (isView : db.view name alias? = .ok view) (added : scope.addTable db name alias? = .ok scope') :
    ∃ part : Part, part.cursor = .table view ∧ part.Of db (.table name alias?) ∧
      part.alone.fields = NameSource.outputNames ⟨some view.qualifier, view.schema.names⟩ := by
  generalize isFields : NameSource.outputNames ⟨some view.qualifier, view.schema.names⟩ = fields
  have back : (Plan.table view).Rewinds db.stores := (Plan.safe_table view).rewinds
  obtain ⟨start, rewound⟩ := Cursor.rewound_eq_ok (c := (Cursor.table view).project fields) back
  refine ⟨⟨⟨fields, start⟩, .table view⟩, rfl, ⟨?_, fun rows collected => ?_, fun name has => ?_⟩, rfl⟩
  · have opened : openSources db [.table name alias?] .empty =
        .ok (⟨[⟨some view.qualifier, view.schema.names⟩], []⟩, [.table view]) := by
      rw [openSources, openSource, addTable_empty isView added, isView]
      rfl
    have names := outputNames_all ⟨[⟨some view.qualifier, view.schema.names⟩], []⟩
    rw [List.flatMap_singleton, isFields] at names
    have built : openSources db [.table name alias?] .empty >>= (fun opened => do
        let scope ← checkNames db opened.1 [.all] [] none
        let rows ← build db opened.2 [.all] [] none
        return OpenQuery.mk (scope.outputNames [.all])
          (← (rows.project (scope.outputNames [.all])).rewound db.stores)) =
          .ok ⟨fields, start⟩ := by
      rw [opened]
      change (do
        let c ← ((Cursor.table view).project (Scope.outputNames _ [.all])).rewound db.stores
        return OpenQuery.mk (Scope.outputNames _ [.all]) c) = _
      rw [names, rewound]
      rfl
    exact built
  · have gives := Plan.Gives.of_collect rewound collected
    rw [Cursor.plan_of_rewound rewound] at gives
    exact gives.of_project (Scan.lists_table view)
  · rw [FromItem.answers, isView]
    exact has

theorem rewound_of_query {q : Query} {opened : OpenQuery} (h : db.query q = .ok opened) :
    ∃ child : Cursor, (child.project opened.fields).rewound db.stores = .ok opened.cursor := by
  obtain ⟨items, sources, joins, filter⟩ := q
  obtain ⟨_, _, _, child, _, _, _, _, rewound⟩ := query_eq_ok h
  exact ⟨child, rewound⟩

theorem part_of_query {q : Query} {opened : OpenQuery} (h : db.query q = .ok opened) :
    Part.Of db (.query q) ⟨opened, opened.cursor⟩ := by
  obtain ⟨child, rewound⟩ := rewound_of_query h
  refine ⟨h, fun rows collected => .of_collect rewound collected, fun name has => ?_⟩
  rw [FromItem.answers, h]
  rw [Cursor.has, Cursor.plan_of_rewound rewound] at has
  exact (Bool.and_eq_true_iff.1 has).1

theorem parts_of_openSources {sources : List (FromItem Query)} {cursors : List Cursor}
    (h : openSources db sources scope = .ok (scope', cursors)) :
    ∃ parts : List Part, cursors = parts.map (·.cursor) ∧
      List.Forall₂ (Part.Of db) sources parts ∧
      scope'.outputNames [.all] = scope.outputNames [.all] ++ parts.flatMap (·.alone.fields) := by
  induction sources generalizing scope cursors with
  | nil =>
    cases h
    exact ⟨[], rfl, .nil, (List.append_nil _).symm⟩
  | cons source sources ih =>
    rw [openSources] at h
    obtain ⟨⟨between, cursor⟩, opened, h⟩ := Checked.bind_eq_ok.1 h
    obtain ⟨⟨last, rest⟩, others, eq⟩ := Checked.bind_eq_ok.1 h
    cases eq
    have first : ∃ part : Part, part.cursor = cursor ∧ part.Of db source ∧
        between.outputNames [.all] = scope.outputNames [.all] ++ part.alone.fields := by
      cases source with
      | table name alias? =>
        rw [openSource] at opened
        obtain ⟨added, isAdded, opened⟩ := Checked.bind_eq_ok.1 opened
        obtain ⟨view, isView, eq⟩ := Checked.bind_eq_ok.1 opened
        cases eq
        obtain ⟨part, isCursor, isPart, names⟩ := part_of_table isView isAdded
        obtain ⟨_, again, rfl, -⟩ := Scope.addTable_eq_ok isAdded
        cases isView.symm.trans again
        refine ⟨part, isCursor, isPart, ?_⟩
        rw [outputNames_all, outputNames_all, List.flatMap_append, List.flatMap_singleton, names]
      | query q =>
        rw [openSource] at opened
        obtain ⟨result, isResult, eq⟩ := Checked.bind_eq_ok.1 opened
        cases eq
        refine ⟨⟨result, result.cursor⟩, rfl, part_of_query isResult, ?_⟩
        rw [outputNames_all, outputNames_all, Scope.addQuery, List.flatMap_append,
          List.flatMap_singleton]
        rfl
    obtain ⟨part, rfl, isPart, names⟩ := first
    obtain ⟨parts, rfl, areParts, restNames⟩ := ih others
    refine ⟨part :: parts, rfl, .cons isPart areParts, ?_⟩
    rw [restNames, names, List.flatMap_cons, List.append_assoc]

/-! ## The product of the sources -/

theorem crossRows_assoc (rows rows' : List (List Value)) (tables : List (List (List Value))) :
    ((rows.flatMap fun row => rows'.map (row ++ ·)).flatMap fun row =>
        (crossRows tables).map (row ++ ·)) =
      rows.flatMap fun row => (crossRows (rows' :: tables)).map (row ++ ·) := by
  simp [crossRows, List.flatMap_assoc, List.flatMap_map, List.map_flatMap, Function.comp_def]

/-- The product nests to the left, and its rows are the choices from the sources in order. The induction
is on the sources still to come, over any product that is there already. -/
theorem gives_foldlM {parts : List Part} {tables : List (List (List Value))} {first c : Cursor}
    {fields : List String} {rows : List (List Value)}
    (gives : first.plan.Gives db.stores fields rows)
    (others : List.Forall₂ (fun part rows =>
      part.cursor.plan.Gives db.stores part.alone.fields rows) parts tables)
    (free : ∀ part ∈ parts, ∀ name ∈ part.alone.fields, first.has name = false)
    (apart : parts.Pairwise fun part other => ∀ name ∈ other.alone.fields, part.cursor.has name = false)
    (h : (parts.map (·.cursor)).foldlM (fun left right => left.product right db.stores) first =
      .ok c) :
    c.plan.Gives db.stores (fields ++ parts.flatMap (·.alone.fields))
      (rows.flatMap fun row => (crossRows tables).map (row ++ ·)) := by
  induction others generalizing first fields rows with
  | nil =>
    cases h
    simpa [crossRows] using gives
  | @cons part rows' parts tables head tail ih =>
    obtain ⟨next, made, h⟩ := Checked.bind_eq_ok.1 h
    have plan := Cursor.plan_of_product made
    obtain ⟨partFree, apart⟩ := List.pairwise_cons.1 apart
    have both : next.plan.Gives db.stores (fields ++ part.alone.fields)
        (rows.flatMap fun row => rows'.map (row ++ ·)) := by
      rw [plan]
      exact gives.product head (free part List.mem_cons_self)
    have nextFree : ∀ other ∈ parts, ∀ name ∈ other.alone.fields, next.has name = false := by
      intro other mem name isField
      rw [Cursor.has, plan]
      exact Bool.or_eq_false_iff.2 ⟨free other (List.mem_cons_of_mem _ mem) name isField,
        partFree other mem name isField⟩
    have all := ih both nextFree apart h
    rw [crossRows_assoc, List.append_assoc] at all
    exact all

theorem gives_joinSources {parts : List Part} {tables : List (List (List Value))} {c : Cursor}
    (gives : List.Forall₂ (fun part rows =>
      part.cursor.plan.Gives db.stores part.alone.fields rows) parts tables)
    (apart : parts.Pairwise fun part other => ∀ name ∈ other.alone.fields, part.cursor.has name = false)
    (h : joinSources db (parts.map (·.cursor)) = .ok (some c)) :
    c.plan.Gives db.stores (parts.flatMap (·.alone.fields)) (crossRows tables) := by
  cases gives with
  | nil => cases h
  | cons head tail =>
    obtain ⟨free, apart⟩ := List.pairwise_cons.1 apart
    obtain ⟨_, isFold, eq⟩ := Checked.bind_eq_ok.1 h
    cases eq
    exact gives_foldlM head tail free apart isFold

/-- Sources that do not hide each other's names are parts that do not. -/
theorem apart_of_hides {sources : List (FromItem Query)} {parts : List Part}
    (areParts : List.Forall₂ (Part.Of db) sources parts)
    (apart : sources.Pairwise fun first second => first.hides db second = false) :
    parts.Pairwise fun part other => ∀ name ∈ other.alone.fields, part.cursor.has name = false := by
  induction areParts with
  | nil => exact .nil
  | @cons source part sources parts isPart areParts ih =>
    obtain ⟨first, apart⟩ := List.pairwise_cons.1 apart
    refine .cons (fun other mem name isField => ?_) (ih apart)
    obtain ⟨second, isSource, isOther⟩ := exists_of_mem_left areParts.flip mem
    have open' := first second isSource
    rw [FromItem.hides, isOther.opens] at open'
    rw [← Bool.not_eq_true]
    intro has
    exact absurd (isPart.answers name has) (List.any_eq_false.1 open' name isField)

theorem gives_of_collect {sources : List (FromItem Query)} {parts : List Part}
    {tables : List (List (List Value))} (areParts : List.Forall₂ (Part.Of db) sources parts)
    (collected : List.Forall₂ (fun source rows =>
      (db.query (FromItem.alone source) >>= (·.collect db.stores)) = .ok rows) sources tables) :
    List.Forall₂ (fun part rows => part.cursor.plan.Gives db.stores part.alone.fields rows) parts
      tables := by
  induction areParts generalizing tables with
  | nil =>
    cases collected
    exact .nil
  | cons isPart _ ih =>
    cases collected with
    | cons isRows collected =>
      rw [isPart.opens] at isRows
      exact .cons (isPart.gives _ isRows) (ih collected)

end Query

/-- A list of sources is their product. Where `SELECT *` from some sources is opened, so is each source on
its own, and the fields are those of the sources one after the other. If no source answers to a name that
a later one reports, and each of them is read to its end, so is the product: its rows are all choices of a
row from each source, side by side, with the first source in the outer loop. -/
theorem Database.collect_product {db : Database} {sources : List (FromItem Query)}
    {opened : OpenQuery} (opens : db.query ⟨[.all], sources, [], none⟩ = .ok opened) :
    (∃ parts, sources.mapM (fun source => db.query source.alone) = .ok parts ∧
      opened.fields = parts.flatMap (·.fields)) ∧
    (sources.Pairwise (fun first second => first.hides db second = false) →
      ∀ tables,
        sources.mapM (fun source => db.query source.alone >>= (·.collect db.stores)) = .ok tables →
          opened.collect db.stores = .ok (crossRows tables)) := by
  obtain ⟨scope, _, _, child, isOpened, isChecked, isBuilt, isFields, isRewound⟩ :=
    Query.query_eq_ok opens
  cases isChecked
  obtain ⟨parts, rfl, areParts, names⟩ := Query.parts_of_openSources isOpened
  have fields : opened.fields = parts.flatMap (·.alone.fields) := isFields.trans names
  obtain ⟨rows, _, last, isRows, isJoined, isComputed, isLast⟩ := Query.build_eq_ok isBuilt
  cases isJoined
  cases isComputed
  refine ⟨⟨parts.map (·.alone), ?_, ?_⟩, fun apart tables collected => ?_⟩
  · rw [Checked.mapM_eq_ok, Checked.map_eq_map_ok, List.forall₂_map_right_iff]
    exact areParts.imp fun _ _ isPart => isPart.opens
  · rw [List.flatMap_map]
    exact fields
  · have same : child = last := by
      rcases isLast with ⟨_, eq⟩ | ⟨_, _, _, isTree, _⟩
      · exact eq
      · cases isTree
    subst same
    have gives := Query.gives_of_collect areParts (Checked.forall₂_of_mapM collected)
    have product := Query.gives_joinSources gives (Query.apart_of_hides areParts apart) isRows
    rw [← fields] at product
    exact product.collect_eq_ok isRewound

/-- A table, and a query over a query in the place of another one. -/
def Query.nestedSources : List (FromItem Query) :=
  [.table "t" none,
    .query ⟨[.all], [.query ⟨[.field "b"], [.table "u" none], [], none⟩], [], none⟩]

theorem Database.collect_product_nested :
    ∃ opened, twoTables.query ⟨[.all], Query.nestedSources, [], none⟩ = .ok opened ∧
      Query.nestedSources.Pairwise (fun first second => first.hides twoTables second = false) ∧
      Query.nestedSources.mapM (fun source =>
        twoTables.query source.alone >>= (·.collect twoTables.stores)) =
          .ok [[[some (.int 1)]], [[some (.int 2)]]] ∧
      opened.collect twoTables.stores = .ok (crossRows [[[some (.int 1)]], [[some (.int 2)]]]) := by
  have isSome : (twoTables.query ⟨[.all], Query.nestedSources, [], none⟩).toOption.isSome = true := by
    decide +kernel
  obtain ⟨opened, isOpened⟩ := Option.isSome_iff_exists.1 isSome
  rw [Checked.toOption_eq_some] at isOpened
  have apart : Query.nestedSources.Pairwise
      (fun first second => first.hides twoTables second = false) := by
    decide +kernel
  have tables : Query.nestedSources.mapM (fun source =>
      twoTables.query source.alone >>= (·.collect twoTables.stores)) =
        .ok [[[some (.int 1)]], [[some (.int 2)]]] := by
    decide +kernel
  exact ⟨opened, isOpened, apart, tables, (collect_product isOpened).2 apart _ tables⟩

/-- Two queries in the place of tables that call their columns alike. Both columns are listed, and both show
the first query's values. -/
example :
    let hidden : List (FromItem Query) := [.query ⟨[.field "a"], [.table "t" none], [], none⟩,
      .query ⟨[.computed (.field "b") "a"], [.table "u" none], [], none⟩]
    (Database.twoTables.query ⟨[.all], hidden, [], none⟩).bind (fun opened => do
      return (opened.fields, ← opened.collect Database.twoTables.stores)) =
      .ok (["a", "a"], [[some (.int 1), some (.int 1)]]) := by
  decide +kernel

end RelEngine
