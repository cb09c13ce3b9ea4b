import RelEngine.Proofs.Plan.Naming
import RelEngine.Proofs.Query.Results

/-!
What an opened query reports can be read, but for names that are not spelled as names are parsed.

The names that a selection of everything reports are put together from qualifiers and columns, and are taken
apart again where a table is read. The two go together unless the qualifier is empty or has a dot, or the
column's name is empty. Names that a list of items or an expression mentions are looked up before anything is
read, so they are found in any case.
-/
namespace RelEngine

/-! ## Names on offer -/

/-- A name that a table reports for one of its columns and that is taken apart in another way. -/
def TableView.Misspells (view : TableView) (name : String) : Prop :=
  ∃ column ∈ view.schema.names, ¬ (FieldName.Plain view.qualifier ∧ column ≠ "") ∧
    name = view.qualifier ++ "." ++ column

/-- The name stands for a field of the source. -/
def NameSource.Offers (e : NameSource) (name : String) : Prop :=
  match e.qualifier, FieldName.parse name with
  | some qualifier, ⟨some other, field⟩ => other = qualifier ∧ field ∈ e.fields
  | _, _ => name ∈ e.fields

/-- The name stands for a field in sight. -/
def Scope.Offers (scope : Scope) (name : String) : Prop :=
  (∃ e ∈ scope.entries, e.Offers name) ∨ name ∈ scope.computed

variable {view : TableView} {name : String} {scope : Scope}

/-- What a table is said to offer is a field of it. -/
theorem TableView.has_of_offers
    (h : NameSource.Offers ⟨some view.qualifier, view.schema.names⟩ name) : view.has name = true := by
  unfold NameSource.Offers at h
  unfold has local?
  rcases parsed : FieldName.parse name with ⟨_ | other, field⟩
  · rw [parsed] at h
    simp only [Schema.has_iff.2 h, if_true, Option.isSome_some]
  · rw [parsed] at h
    obtain ⟨rfl, mem⟩ := h
    simp only [beq_self_eq_true, Schema.has_iff.2 mem, Bool.true_and, if_true, Option.isSome_some]

theorem NameSource.offers_or_misspells
    (h : name ∈ NameSource.outputNames ⟨some view.qualifier, view.schema.names⟩) :
    NameSource.Offers ⟨some view.qualifier, view.schema.names⟩ name ∨ view.Misspells name := by
  obtain ⟨column, mem, rfl⟩ := List.mem_map.1 h
  by_cases spelled : FieldName.Plain view.qualifier ∧ column ≠ ""
  · left
    unfold Offers
    rw [FieldName.parse_qualified spelled.1 spelled.2]
    exact ⟨rfl, mem⟩
  · exact .inr ⟨column, mem, spelled, rfl⟩

theorem Scope.offers_of_occurrences (h : scope.occurrences name ≠ 0) : scope.Offers name := by
  by_cases computed : name ∈ scope.computed
  · exact .inr computed
  rw [occurrences, List.count_eq_zero_of_not_mem computed, Nat.add_zero] at h
  obtain ⟨e, found⟩ := List.exists_mem_of_length_pos (Nat.pos_of_ne_zero h)
  obtain ⟨mem, matched⟩ := List.mem_filter.1 found
  obtain ⟨bare, isField⟩ := Bool.and_eq_true_iff.1 matched
  refine .inl ⟨e, mem, ?_⟩
  unfold NameSource.Offers
  cases isQualifier : e.qualifier with
  | none => exact List.contains_iff_mem.1 isField
  | some qualifier =>
    rw [isQualifier] at bare
    have noDot : '.' ∉ name.toList := by simpa using bare
    rw [FieldName.parse_of_no_dot noDot]
    exact List.contains_iff_mem.1 isField

/-- A name that is accepted stands for a field in sight. -/
theorem Scope.offers_of_check (h : scope.check name = .ok ()) : scope.Offers name := by
  by_cases none : scope.occurrences name = 0
  · rw [check, none] at h
    rcases parsed : FieldName.parse name with ⟨_ | qualifier, field⟩
    · rw [parsed] at h
      cases h
    · simp only [parsed] at h
      cases found : scope.entries.find? (·.qualifier == some qualifier) with
      | none =>
        rw [found] at h
        cases h
      | some e =>
        simp only [found] at h
        split at h
        · next isField =>
          have isQualifier : e.qualifier = some qualifier := eq_of_beq (List.find?_some found :)
          refine .inl ⟨e, List.mem_of_find?_eq_some found, ?_⟩
          unfold NameSource.Offers
          rw [isQualifier, parsed]
          exact ⟨rfl, List.contains_iff_mem.1 isField⟩
        · cases h
  · exact offers_of_occurrences none

namespace Query

variable {db : Database} {tables : TableView → Prop} {bad : String → Prop} {has has' : String → Prop}
  {scope' : Scope} {rows rows' : Option Cursor}

/-- Whatever is on offer is a field of the rows so far, or passed on from a source that has it not. -/
structure Covers (tables : TableView → Prop) (bad : String → Prop) (scope : Scope)
    (has : String → Prop) : Prop where
  offered : ∀ name, scope.Offers name → has name ∨ bad name
  sources : ∀ e ∈ scope.entries, e.qualifier = none ∨
    ∃ view, tables view ∧ e = ⟨some view.qualifier, view.schema.names⟩

namespace Covers

theorem mono (h : Covers tables bad scope has) (grows : ∀ name, has name → has' name) :
    Covers tables bad scope has' :=
  ⟨fun name offer => (h.offered name offer).imp_left (grows name), h.sources⟩

theorem empty : Covers tables bad Scope.empty has where
  offered name offer := by
    rcases offer with ⟨e, mem, _⟩ | mem
    · cases mem
    · cases mem
  sources := nofun

/-- A source more, whose fields are shown or misspelled. -/
theorem addEntry {e : NameSource} (h : Covers tables bad scope has)
    (shown : ∀ name, e.Offers name → has name ∨ bad name)
    (known : e.qualifier = none ∨ ∃ view, tables view ∧ e = ⟨some view.qualifier, view.schema.names⟩) :
    Covers tables bad { scope with entries := scope.entries ++ [e] } has where
  offered name offer := by
    rcases offer with ⟨d, mem, offer⟩ | mem
    · rcases List.mem_append.1 mem with mem | mem
      · exact h.offered name (.inl ⟨d, mem, offer⟩)
      · cases List.mem_singleton.1 mem
        exact shown name offer
    · exact h.offered name (.inr mem)
  sources d mem := by
    rcases List.mem_append.1 mem with mem | mem
    · exact h.sources d mem
    · cases List.mem_singleton.1 mem
      exact known

theorem addTable (h : Covers tables bad scope has) (isTable : tables view)
    (shown : ∀ name, view.has name = true → has name) :
    Covers tables bad
      { scope with entries := scope.entries ++ [⟨some view.qualifier, view.schema.names⟩] } has :=
  h.addEntry (fun name offer => .inl (shown name (TableView.has_of_offers offer))) (.inr ⟨view, isTable, rfl⟩)

theorem addQuery {fields : List String} (h : Covers tables bad scope has)
    (shown : ∀ name ∈ fields, has name ∨ bad name) :
    Covers tables bad (scope.addQuery fields) has :=
  h.addEntry shown (.inl rfl)

theorem addComputed (h : Covers tables bad scope has) (shown : has name) :
    Covers tables bad { scope with computed := scope.computed ++ [name] } has where
  offered other offer := by
    rcases offer with source | mem
    · exact h.offered other (.inl source)
    · rcases List.mem_append.1 mem with mem | mem
      · exact h.offered other (.inr mem)
      · cases List.mem_singleton.1 mem
        exact .inl shown
  sources := h.sources

/-- A selection reports what is on offer, but for the misspelled names of tables. -/
theorem outputName {items : List SelectItem} (h : Covers tables bad scope has)
    (accepted : ∀ name, .field name ∈ items → scope.check name = .ok ())
    (computed : ∀ value name, .computed value name ∈ items → name ∈ scope.computed)
    (reported : name ∈ scope.outputNames items) :
    has name ∨ bad name ∨ .all ∈ items ∧ ∃ view, tables view ∧ view.Misspells name := by
  obtain ⟨item, mem, reported⟩ := List.mem_flatMap.1 reported
  cases item with
  | all =>
    obtain ⟨e, isSource, reported⟩ := List.mem_flatMap.1 reported
    rcases h.sources e isSource with isQuery | ⟨view, isTable, rfl⟩
    · have offer : e.Offers name := by
        unfold NameSource.Offers
        unfold NameSource.outputNames at reported
        rw [isQuery] at reported ⊢
        exact reported
      exact (h.offered name (.inl ⟨e, isSource, offer⟩)).imp_right .inl
    · rcases NameSource.offers_or_misspells reported with offer | misspelled
      · exact (h.offered name (.inl ⟨_, isSource, offer⟩)).imp_right .inl
      · exact .inr (.inr ⟨mem, view, isTable, misspelled⟩)
  | field other =>
    cases List.mem_singleton.1 reported
    exact (h.offered name (Scope.offers_of_check (accepted name mem))).imp_right .inl
  | computed value other =>
    cases List.mem_singleton.1 reported
    exact (h.offered name (.inr (computed value name mem))).imp_right .inl

end Covers

/-! ## Stages of opening -/

/-- A stage of opening a query: the rows so far find their fields, and have what is on offer. -/
structure Finds (tables : TableView → Prop) (bad : String → Prop) (scope : Scope)
    (rows : Option Cursor) : Prop where
  reader : ∀ c ∈ rows, c.plan.scan.Finds
  covers : Covers tables bad scope fun name => ∃ c ∈ rows, c.has name = true

/-- The first source is read by the first cursor, and so on. -/
theorem covers_sources {sources : List (FromItem Query)} {cursors : List Cursor}
    (isTable : ∀ table alias? view, .table table alias? ∈ sources →
      db.view table alias? = .ok view → tables view)
    (nested : ∀ q opened, .query q ∈ sources → db.query q = .ok opened →
      opened.cursor.plan.scan.Finds ∧
        ∀ name ∈ opened.fields, opened.cursor.has name = true ∨ bad name)
    (h : openSources db sources scope = .ok (scope', cursors))
    (before : Covers tables bad scope has) :
    (∀ c ∈ cursors, c.plan.scan.Finds) ∧
      Covers tables bad scope' fun name => has name ∨ ∃ c ∈ cursors, c.has name = true := by
  induction sources generalizing scope cursors has with
  | nil =>
    cases h
    exact ⟨nofun, before.mono fun _ => .inl⟩
  | cons source sources ih =>
    rw [openSources] at h
    obtain ⟨⟨between, cursor⟩, opened, h⟩ := Checked.bind_eq_ok.1 h
    obtain ⟨⟨last, rest⟩, others, eq⟩ := Checked.bind_eq_ok.1 h
    cases eq
    have first : cursor.plan.scan.Finds ∧
        Covers tables bad between fun name => has name ∨ cursor.has name = true := by
      have grown : Covers tables bad _ fun name => has name ∨ cursor.has name = true :=
        before.mono fun _ => .inl
      cases source with
      | table table alias? =>
        rw [openSource] at opened
        obtain ⟨added, isAdded, opened⟩ := Checked.bind_eq_ok.1 opened
        obtain ⟨view, isView, eq⟩ := Checked.bind_eq_ok.1 opened
        cases eq
        obtain ⟨_, again, rfl, -⟩ := Scope.addTable_eq_ok isAdded
        cases isView.symm.trans again
        exact ⟨Plan.finds_table view,
          grown.addTable (isTable table alias? view List.mem_cons_self isView) fun _ => .inr⟩
      | query q =>
        rw [openSource] at opened
        obtain ⟨result, isResult, eq⟩ := Checked.bind_eq_ok.1 opened
        cases eq
        obtain ⟨finds, shown⟩ := nested q result List.mem_cons_self isResult
        exact ⟨finds, grown.addQuery fun name mem => (shown name mem).imp_left .inr⟩
    obtain ⟨finds, covers⟩ := ih
      (fun table alias? view mem => isTable table alias? view (List.mem_cons_of_mem _ mem))
      (fun q opened mem => nested q opened (List.mem_cons_of_mem _ mem)) others first.2
    refine ⟨List.forall_mem_cons.2 ⟨first.1, finds⟩, covers.mono ?_⟩
    rintro name ((held | isFirst) | ⟨c, mem, isRest⟩)
    · exact .inl held
    · exact .inr ⟨cursor, List.mem_cons_self, isFirst⟩
    · exact .inr ⟨c, List.mem_cons_of_mem _ mem, isRest⟩

/-- A product has what its sources have. The induction is over any product that is there already. -/
theorem finds_foldl_product {cursors : List Cursor} {first c : Cursor}
    (finds : first.plan.scan.Finds) (each : ∀ c ∈ cursors, c.plan.scan.Finds)
    (h : cursors.foldlM (fun left right => left.product right db.stores) first = .ok c) :
    c.plan.scan.Finds ∧
      ∀ name, (∃ source ∈ first :: cursors, source.has name = true) → c.has name = true := by
  induction cursors generalizing first with
  | nil =>
    cases h
    refine ⟨finds, ?_⟩
    rintro name ⟨source, mem, shown⟩
    cases List.mem_singleton.1 mem
    exact shown
  | cons next cursors ih =>
    obtain ⟨both, made, h⟩ := Checked.bind_eq_ok.1 h
    have plan := Cursor.plan_of_product made
    have bothFinds : both.plan.scan.Finds := by
      rw [plan]
      exact Plan.finds_product finds (each next List.mem_cons_self)
    obtain ⟨finds, shows⟩ := ih bothFinds (fun c mem => each c (List.mem_cons_of_mem _ mem)) h
    have bothHas : ∀ name, first.has name = true ∨ next.has name = true → both.has name = true := by
      intro name shown
      rw [Cursor.has, plan]
      exact Bool.or_eq_true_iff.2 shown
    refine ⟨finds, ?_⟩
    rintro name ⟨source, mem, shown⟩
    rcases List.mem_cons.1 mem with rfl | mem
    · exact shows name ⟨both, List.mem_cons_self, bothHas name (.inl shown)⟩
    · rcases List.mem_cons.1 mem with rfl | mem
      · exact shows name ⟨both, List.mem_cons_self, bothHas name (.inr shown)⟩
      · exact shows name ⟨source, List.mem_cons_of_mem _ mem, shown⟩

theorem finds_joinSources {cursors : List Cursor} (each : ∀ c ∈ cursors, c.plan.scan.Finds)
    (covers : Covers tables bad scope fun name => ∃ c ∈ cursors, c.has name = true)
    (h : joinSources db cursors = .ok rows) : Finds tables bad scope rows := by
  cases cursors with
  | nil =>
    cases h
    exact ⟨nofun, covers.mono fun _ => by rintro ⟨_, mem, _⟩; cases mem⟩
  | cons first cursors =>
    obtain ⟨c, product, eq⟩ := Checked.bind_eq_ok.1 h
    cases eq
    obtain ⟨finds, shows⟩ := finds_foldl_product (each first List.mem_cons_self)
      (fun c mem => each c (List.mem_cons_of_mem _ mem)) product
    exact ⟨fun _ mem => by cases mem; exact finds, covers.mono fun name shown => ⟨c, rfl, shows name shown⟩⟩

/-- A join has the fields of both sides, and its predicate is bound to them. -/
theorem finds_addJoin {clause : JoinClause} {left c : Cursor} (finds : left.plan.scan.Finds)
    (isView : db.view clause.table clause.alias? = .ok view)
    (h : addJoin db (some left) clause = .ok c) :
    c.plan.scan.Finds ∧
      ∀ name, left.has name = true ∨ view.has name = true → c.has name = true := by
  have joined : (Plan.table view).scan.Finds := Plan.finds_table view
  simp only [addJoin, isView, Checked.ok_bind] at h
  cases kind : clause.kind with
  | inner =>
    simp only [kind] at h
    obtain ⟨product, made, h⟩ := Checked.bind_eq_ok.1 h
    obtain ⟨e, bound, eq⟩ := Checked.bind_eq_ok.1 h
    cases eq
    have plan := Cursor.plan_of_product made
    have productFinds : product.plan.scan.Finds := by
      rw [plan]
      exact Plan.finds_product joined finds
    refine ⟨Plan.finds_select productFinds (Tree.onRow_among bound), fun name shown => ?_⟩
    change product.plan.has name = true
    rw [plan]
    exact Bool.or_eq_true_iff.2 shown.symm
  | left =>
    simp only [kind] at h
    obtain ⟨base, e, isBase, bound, plan⟩ := Cursor.plan_of_joinOn h
    have onRow := Tree.onRow_among bound
    simp only [Cursor.has, isBase] at onRow
    have finds' : c.plan.scan.Finds := by
      rw [plan]
      exact Plan.finds_join finds joined onRow
    refine ⟨finds', fun name shown => ?_⟩
    rw [Cursor.has, plan]
    exact Bool.or_eq_true_iff.2 shown
  | right =>
    simp only [kind] at h
    obtain ⟨base, e, isBase, bound, plan⟩ := Cursor.plan_of_joinOn h
    have onRow := Tree.onRow_among bound
    simp only [Cursor.has, isBase] at onRow
    have finds' : c.plan.scan.Finds := by
      rw [plan]
      exact Plan.finds_join joined finds onRow
    refine ⟨finds', fun name shown => ?_⟩
    rw [Cursor.has, plan]
    exact Bool.or_eq_true_iff.2 shown.symm

theorem Finds.join {clause : JoinClause} {c : Cursor} (stage : Finds tables bad scope rows)
    (isTable : ∀ view, db.view clause.table clause.alias? = .ok view → tables view)
    (checked : checkJoin db scope clause = .ok scope') (joined : addJoin db rows clause = .ok c) :
    Finds tables bad scope' (some c) := by
  obtain ⟨added, isAdded, checked⟩ := Checked.bind_eq_ok.1 checked
  obtain ⟨⟨⟩, _, eq⟩ := Checked.bind_eq_ok.1 checked
  cases eq
  obtain ⟨view, isView, rfl, -⟩ := Scope.addTable_eq_ok isAdded
  cases rows with
  | none => cases joined
  | some left =>
    obtain ⟨finds, shows⟩ := finds_addJoin (stage.reader left rfl) isView joined
    refine ⟨fun _ mem => by cases mem; exact finds, ?_⟩
    refine (stage.covers.mono ?_).addTable (isTable view isView) ?_
    · rintro name ⟨_, mem, shown⟩
      cases mem
      exact ⟨c, rfl, shows name (.inl shown)⟩
    · intro name shown
      exact ⟨c, rfl, shows name (.inr shown)⟩

theorem Finds.joins {joins : List JoinClause} (stage : Finds tables bad scope rows)
    (isTable : ∀ clause ∈ joins, ∀ view,
      db.view clause.table clause.alias? = .ok view → tables view)
    (checked : joins.foldlM (checkJoin db) scope = .ok scope')
    (built : joins.foldlM (fun rows clause => return some (← addJoin db rows clause)) rows =
      .ok rows') : Finds tables bad scope' rows' := by
  induction joins generalizing scope rows with
  | nil =>
    cases checked
    cases built
    exact stage
  | cons clause joins ih =>
    obtain ⟨between, isChecked, checked⟩ := Checked.bind_eq_ok.1 checked
    obtain ⟨next, isBuilt, built⟩ := Checked.bind_eq_ok.1 built
    obtain ⟨c, joined, eq⟩ := Checked.bind_eq_ok.1 isBuilt
    cases eq
    have next := stage.join (isTable clause List.mem_cons_self) isChecked joined
    exact ih next (fun clause mem => isTable clause (List.mem_cons_of_mem _ mem)) checked built

/-- A computed field hides a field of the same name, so the rows have no fewer names with it. -/
theorem Finds.compute {item : SelectItem} (stage : Finds tables bad scope rows)
    (checked : checkItem scope item = .ok scope') (built : addComputed rows item = .ok rows') :
    Finds tables bad scope' rows' ∧ (∀ name ∈ scope.computed, name ∈ scope'.computed) ∧
      ∀ value name, item = .computed value name → name ∈ scope'.computed := by
  cases item with
  | all =>
    cases checked
    cases built
    exact ⟨stage, fun _ mem => mem, nofun⟩
  | field name =>
    cases checked
    cases built
    exact ⟨stage, fun _ mem => mem, nofun⟩
  | computed value name =>
    obtain ⟨⟨⟩, _, added⟩ := Checked.bind_eq_ok.1 checked
    obtain ⟨rfl, -⟩ := Scope.addComputed_eq_ok added
    have own : ∀ (tree : Tree) (other : String), SelectItem.computed value name = .computed tree other →
        other ∈ scope.computed ++ [name] := by
      intro tree other eq
      cases eq
      exact List.mem_append_right _ (List.mem_singleton_self _)
    refine ⟨?_, fun _ mem => List.mem_append_left _ mem, own⟩
    cases rows with
    | none =>
      obtain ⟨e, bound, eq⟩ := Checked.bind_eq_ok.1 built
      cases eq
      refine ⟨fun _ mem => by cases mem; exact Plan.finds_single (Tree.onRow_forbidden bound), ?_⟩
      refine (stage.covers.mono ?_).addComputed ⟨_, rfl, beq_self_eq_true name⟩
      rintro _ ⟨_, mem, _⟩
      cases mem
    | some child =>
      obtain ⟨e, bound, eq⟩ := Checked.bind_eq_ok.1 built
      cases eq
      have finds := Plan.finds_extend name (stage.reader child rfl) (Tree.onRow_among bound)
      refine ⟨fun _ mem => by cases mem; exact finds, ?_⟩
      refine (stage.covers.mono ?_).addComputed
        ⟨_, rfl, Bool.or_eq_true_iff.2 (.inl (beq_self_eq_true name))⟩
      rintro other ⟨_, mem, shown⟩
      cases mem
      exact ⟨_, rfl, Bool.or_eq_true_iff.2 (.inr shown)⟩

theorem Finds.computes {items : List SelectItem} (stage : Finds tables bad scope rows)
    (checked : items.foldlM checkItem scope = .ok scope')
    (built : items.foldlM addComputed rows = .ok rows') :
    Finds tables bad scope' rows' ∧ (∀ name ∈ scope.computed, name ∈ scope'.computed) ∧
      ∀ value name, .computed value name ∈ items → name ∈ scope'.computed := by
  induction items generalizing scope rows with
  | nil =>
    cases checked
    cases built
    exact ⟨stage, fun _ mem => mem, nofun⟩
  | cons item items ih =>
    obtain ⟨between, isChecked, checked⟩ := Checked.bind_eq_ok.1 checked
    obtain ⟨next, isBuilt, built⟩ := Checked.bind_eq_ok.1 built
    obtain ⟨stage', keeps, own⟩ := stage.compute isChecked isBuilt
    obtain ⟨stage'', keeps', own'⟩ := ih stage' checked built
    refine ⟨stage'', fun name mem => keeps' name (keeps name mem), ?_⟩
    intro value name mem
    rcases List.mem_cons.1 mem with eq | mem
    · exact keeps' name (own value name eq.symm)
    · exact own' value name mem

/-! ## Opened queries -/

/-- The names that a query reports for columns of its tables, or of those of its subqueries, that are taken
apart in another way. -/
inductive Misspelled (db : Database) : Query → String → Prop where
  | source {items sources joins filter table alias? view name} (shown : .all ∈ items)
    (mem : .table table alias? ∈ sources) (isView : db.view table alias? = .ok view)
    (misspelled : view.Misspells name) : Misspelled db ⟨items, sources, joins, filter⟩ name
  | joined {items sources joins filter clause view name} (shown : .all ∈ items) (mem : clause ∈ joins)
    (isView : db.view clause.table clause.alias? = .ok view)
    (misspelled : view.Misspells name) : Misspelled db ⟨items, sources, joins, filter⟩ name
  | passed {items sources joins filter q name} (mem : .query q ∈ sources)
    (misspelled : Misspelled db q name) : Misspelled db ⟨items, sources, joins, filter⟩ name

/-- An opened query finds the fields that it reports, but for misspelled ones. -/
structure Found (db : Database) (q : Query) (opened : OpenQuery) : Prop where
  reader : opened.cursor.plan.scan.Finds
  fields : ∀ name ∈ opened.fields, opened.cursor.has name = true ∨ q.Misspelled db name

theorem found_of_sources {items : List SelectItem} {sources : List (FromItem Query)}
    {joins : List JoinClause} {filter : Option Tree} {opened : OpenQuery}
    (h : db.query ⟨items, sources, joins, filter⟩ = .ok opened)
    (nested : ∀ q opened, .query q ∈ sources → db.query q = .ok opened → Found db q opened) :
    Found db ⟨items, sources, joins, filter⟩ opened := by
  obtain ⟨first, cursors, scope, child, isOpened, isChecked, isBuilt, fields, rewound⟩ := query_eq_ok h
  obtain ⟨between, isJoined, isComputed, accepted, -⟩ := checkNames_eq_ok isChecked
  obtain ⟨start, joined, rows, isStart, isJoin, isRows, last⟩ := build_eq_ok isBuilt
  let tables (view : TableView) : Prop :=
    (∃ table alias?, .table table alias? ∈ sources ∧ db.view table alias? = .ok view) ∨
      ∃ clause ∈ joins, db.view clause.table clause.alias? = .ok view
  let bad (name : String) : Prop := ∃ q, .query q ∈ sources ∧ q.Misspelled db name
  have none : Covers tables bad Scope.empty fun _ => False := .empty
  obtain ⟨each, covers⟩ := covers_sources
    (fun table alias? view mem isView => .inl ⟨table, alias?, mem, isView⟩)
    (fun q opened mem opens => ⟨(nested q opened mem opens).reader, fun name reported =>
      ((nested q opened mem opens).fields name reported).imp_right fun m => ⟨q, mem, m⟩⟩)
    isOpened none
  have stage : Finds tables bad first start :=
    finds_joinSources each (covers.mono fun name shown => shown.resolve_left id) isStart
  have stage := stage.joins (fun clause mem view isView => .inr ⟨clause, mem, isView⟩) isJoined isJoin
  obtain ⟨stage, -, computed⟩ := stage.computes isComputed isRows
  have whole : child.plan.scan.Finds ∧ child.has = rows.has := by
    rcases last with ⟨-, rfl⟩ | ⟨tree, _, e, -, rfl, bound, rfl⟩
    · exact ⟨stage.reader _ rfl, rfl⟩
    · exact ⟨Plan.finds_select (stage.reader _ rfl) (Tree.onRow_among bound), rfl⟩
  have plan := Cursor.plan_of_rewound rewound
  refine ⟨?_, fun name reported => ?_⟩
  · rw [plan]
    exact Plan.finds_project whole.1 opened.fields
  · rw [Cursor.has, plan]
    change (opened.fields.contains name && child.has name) = true ∨ _
    rw [List.contains_iff_mem.2 reported, Bool.true_and, whole.2]
    rw [fields] at reported
    rcases stage.covers.outputName accepted computed reported with
      ⟨_, isRow, shown⟩ | ⟨q, mem, misspelled⟩ | ⟨shown, view, source | join, misspelled⟩
    · cases isRow
      exact .inl shown
    · exact .inr (.passed mem misspelled)
    · obtain ⟨table, alias?, mem, isView⟩ := source
      exact .inr (.source shown mem isView misspelled)
    · obtain ⟨clause, mem, isView⟩ := join
      exact .inr (.joined shown mem isView misspelled)

theorem found : (q : Query) → ∀ {opened : OpenQuery}, db.query q = .ok opened → Found db q opened
  | ⟨_, _, _, _⟩, _, h => found_of_sources h fun q _ _ opens => found q opens
termination_by q => sizeOf q
decreasing_by
  have smaller := List.sizeOf_lt_of_mem ‹FromItem.query q ∈ _›
  simp only [FromItem.query.sizeOf_spec, Query.mk.sizeOf_spec] at smaller ⊢
  omega

end Query

/-! ## Reading rows -/

/-- The next row of a reader that finds its fields, or one of them, is never missed for the lack of a field
that the reader has. -/
theorem OpenQuery.lack_of_row {fields : List String} {stores : Stores} {c : Cursor}
    (finds : c.plan.scan.Finds) {missing : String}
    (h : row fields stores c = .error (.fieldNotFound missing)) :
    missing ∈ fields ∧ c.has missing = false := by
  obtain ⟨name, mem, bad⟩ := Checked.mapM_eq_error h
  cases shown : c.has name with
  | true => exact absurd rfl (finds.found stores c.state name _ shown bad missing)
  | false =>
    cases (finds.missing stores c.state name shown).symm.trans bad
    exact ⟨mem, shown⟩

/-- Reading on stops where moving or reading a row fails, in some state of the same reader. -/
theorem Cursor.cause_of_stop {α : Type} {stores : Stores} {row : Cursor → Checked α} {fuel : Nat}
    {c : Cursor} {e : Error} (h : (readOn stores row fuel c).stopped = some e) :
    ∃ c' : Cursor, c'.plan = c.plan ∧ ((c'.next stores).1 = .error e ∨ row c' = .error e) := by
  induction fuel generalizing c with
  | zero => cases h
  | succ fuel ih =>
    rw [readOn] at h
    rcases moved : c.next stores with ⟨_ | more, c'⟩
    · rw [moved] at h
      cases h
      exact ⟨c, rfl, .inl (congrArg Prod.fst moved)⟩
    have same : c'.plan = c.plan := congrArg (fun p => p.2.plan) moved.symm
    rw [moved] at h
    cases more with
    | false => cases h
    | true =>
      cases isRow : row c' with
      | error x =>
        simp only [isRow] at h
        cases h
        exact ⟨c', same, .inr isRow⟩
      | ok r =>
        simp only [isRow] at h
        obtain ⟨last, plan, cause⟩ := ih h
        exact ⟨last, plan.trans same, cause⟩

/-- Every field that an opened query reports is a field of its rows, but for misspelled names. Wherever its
reader stands, and whatever the tables hold by then, moving on fails for the lack of no field, and reading a
row only for the lack of a reported one that is misspelled; so this alone stops the reading of all rows. -/
theorem Database.query_readable {db : Database} {q : Query} {opened : OpenQuery}
    (opens : db.query q = .ok opened) :
    (∀ name ∈ opened.fields, opened.cursor.has name = true ∨ q.Misspelled db name) ∧
    (∀ stores (c : Cursor), c.plan = opened.cursor.plan → ∀ missing,
      (c.next stores).1 ≠ .error (.fieldNotFound missing) ∧
      (OpenQuery.row opened.fields stores c = .error (.fieldNotFound missing) →
        missing ∈ opened.fields ∧ opened.cursor.has missing = false ∧ q.Misspelled db missing)) ∧
    ∀ stores missing, (opened.read stores).stopped = some (.fieldNotFound missing) →
      missing ∈ opened.fields ∧ opened.cursor.has missing = false ∧ q.Misspelled db missing := by
  have found := q.found opens
  have moves : ∀ stores (c : Cursor), c.plan = opened.cursor.plan → ∀ missing,
      (c.next stores).1 ≠ .error (.fieldNotFound missing) := by
    intro stores c plan missing bad
    have finds : c.plan.scan.Finds := plan ▸ found.reader
    exact finds.moves stores c.state _ bad missing rfl
  have rows : ∀ stores (c : Cursor), c.plan = opened.cursor.plan → ∀ missing,
      OpenQuery.row opened.fields stores c = .error (.fieldNotFound missing) →
        missing ∈ opened.fields ∧ opened.cursor.has missing = false ∧ q.Misspelled db missing := by
    intro stores c plan missing bad
    obtain ⟨reported, hidden⟩ := OpenQuery.lack_of_row (plan ▸ found.reader) bad
    rw [Cursor.has, plan] at hidden
    refine ⟨reported, hidden, (found.fields missing reported).resolve_left fun shown => ?_⟩
    exact Bool.false_ne_true (hidden.symm.trans shown)
  refine ⟨found.fields, fun stores c plan missing => ⟨moves stores c plan missing,
    rows stores c plan missing⟩, fun stores missing stopped => ?_⟩
  obtain ⟨c, plan, bad | bad⟩ := Cursor.cause_of_stop stopped
  · exact absurd bad (moves stores c plan missing)
  · exact rows stores c plan missing bad

/-- One table whose name has a dot, with one row. -/
def Database.dottedTable : Database where
  stores := [(RowStore.empty.allocate [0, 1, 0, 0, 0]).1]
  tables := SortedMap.empty.insert "a.b" ⟨.ofColumns [.plain "c" .int 0], 0⟩
  references := []

/-- Everything is selected from a table whose name has a dot: a field is reported and then not found. -/
theorem Database.query_readable_dotted :
    ∃ opened, dottedTable.query ⟨[.all], [.table "a.b" none], [], none⟩ = .ok opened ∧
      opened.fields = ["a.b.c"] ∧ opened.cursor.has "a.b.c" = false ∧
      (opened.read dottedTable.stores).stopped = some (.fieldNotFound "a.b.c") ∧
      Query.Misspelled dottedTable ⟨[.all], [.table "a.b" none], [], none⟩ "a.b.c" := by
  have shown : (dottedTable.query ⟨[.all], [.table "a.b" none], [], none⟩).map (fun opened =>
      (opened.fields, opened.cursor.has "a.b.c", (opened.read dottedTable.stores).stopped)) =
        .ok (["a.b.c"], false, some (.fieldNotFound "a.b.c")) := by
    decide +kernel
  cases opens : dottedTable.query ⟨[.all], [.table "a.b" none], [], none⟩ with
  | error e =>
    rw [opens] at shown
    cases shown
  | ok opened =>
    rw [opens] at shown
    obtain ⟨fields, rest⟩ := Prod.mk.inj (Except.ok.inj shown)
    obtain ⟨hidden, stopped⟩ := Prod.mk.inj rest
    have misspelled := ((query_readable opens).2.2 dottedTable.stores "a.b.c" stopped).2.2
    exact ⟨opened, rfl, fields, hidden, stopped, misspelled⟩

end RelEngine
