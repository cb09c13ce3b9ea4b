import RelEngine.Proofs.Query.Collecting
import RelEngine.Proofs.Query.Readable

/-!
How many meanings a name has where a query refers to it.

Opening a query adds names to those in sight and looks up the names that the query refers to, in one fixed order.
A reference is refused as ambiguous if two sources or computed fields are called so. Not all of them are
counted: a name that is parsed as a qualified one is taken as soon as a query's output or a computed field is
called so, and a table is passed over whose own name or column is taken apart in another way. Apart from names
that escape the count like this each reference that is accepted has one meaning, and the names that are refused
as ambiguous are just those with several. The main statement is `Database.references_exact`.
-/
namespace RelEngine

/-! ## Names and their sources -/

/-- A table has its columns, with its qualifier or without. A query has its output names. -/
def NameSource.exposes (e : NameSource) (name : String) : Bool :=
  e.fields.contains name || e.outputNames.contains name

/-- How many sources and computed fields in sight have the name. -/
def Scope.exposures (scope : Scope) (name : String) : Nat :=
  scope.entries.countP (·.exposes name) + scope.computed.count name

/-- A table has the name, but with a dot in it that makes it the name of another one's column, or of none. -/
def NameSource.Misreads (e : NameSource) (name : String) : Prop :=
  e.exposes name = true ∧ e.qualifier ≠ none ∧ '.' ∈ name.toList ∧
    ∀ field ∈ e.fields, FieldName.parse name ≠ ⟨e.qualifier, field⟩

/-- Several sources or computed fields have the name, but the count of them is passed by: either the name is
parsed as a qualified one and anything is counted, or no more than one is and a table that has the name is not. -/
def Scope.Overlooks (scope : Scope) (name : String) : Prop :=
  2 ≤ scope.exposures name ∧
    ((FieldName.parse name).qualifier ≠ none ∧ 0 < scope.occurrences name ∨
      scope.occurrences name ≤ 1 ∧ ∃ e ∈ scope.entries, e.Misreads name)

/-- No two tables in sight have the same qualifier. -/
def Scope.Distinct (scope : Scope) : Prop := (scope.entries.filterMap (·.qualifier)).Nodup

namespace NameSource

variable {e : NameSource} {name : String}

theorem exposes_of_query (isQuery : e.qualifier = none) : e.exposes name = e.fields.contains name := by
  rw [exposes, outputNames, isQuery, Bool.or_self]

theorem exposes_of_no_dot (noDot : '.' ∉ name.toList) : e.exposes name = e.fields.contains name := by
  cases isTable : e.qualifier with
  | none => exact exposes_of_query isTable
  | some qualifier =>
    have notOutput : e.outputNames.contains name = false := by
      rw [← Bool.not_eq_true, List.contains_iff_mem, outputNames, isTable]
      intro mem
      obtain ⟨field, -, rfl⟩ := List.mem_map.1 mem
      simp at noDot
    rw [exposes, notOutput, Bool.or_false]

theorem exposes_of_mem (mem : name ∈ e.fields) : e.exposes name = true := by
  rw [exposes, List.contains_iff_mem.2 mem, Bool.true_or]

theorem exposes_of_offers (h : e.Offers name) : e.exposes name = true := by
  unfold Offers at h
  split at h
  · next qualifier other field isTable parsed =>
    obtain ⟨rfl, mem⟩ := h
    have isOutput : name ∈ e.outputNames := by
      rw [outputNames, isTable, FieldName.eq_of_parse parsed]
      exact List.mem_map_of_mem mem
    rw [exposes, List.contains_iff_mem.2 isOutput, Bool.or_true]
  · exact exposes_of_mem h

/-- A name that is parsed as a bare one is counted for each source that has it. -/
theorem exposes_of_parse_bare {rest : String} (parsed : FieldName.parse name = ⟨none, rest⟩)
    (read : ¬ e.Misreads name) :
    e.exposes name = ((e.qualifier.isNone || !name.toList.contains '.') && e.fields.contains name) := by
  by_cases dot : '.' ∈ name.toList
  · cases isTable : e.qualifier with
    | none =>
      rw [exposes_of_query isTable]
      rfl
    | some qualifier =>
      have notExposed : e.exposes name = false := by
        rw [← Bool.not_eq_true]
        intro exposed
        refine read ⟨exposed, ?_, dot, fun field _ => ?_⟩
        · rw [isTable]
          exact Option.some_ne_none qualifier
        · rw [parsed, isTable]
          intro same
          cases same
      rw [notExposed, List.contains_iff_mem.2 dot]
      rfl
  · have noDot : name.toList.contains '.' = false := by
      rw [← Bool.not_eq_true, List.contains_iff_mem]
      exact dot
    rw [exposes_of_no_dot dot, noDot, Bool.not_false, Bool.or_true, Bool.true_and]

/-- A table that has a qualified name is the one that the qualifier names. -/
theorem qualifier_of_exposes {qualifier field : String}
    (parsed : FieldName.parse name = ⟨some qualifier, field⟩) (isTable : e.qualifier ≠ none)
    (exposed : e.exposes name = true) (read : ¬ e.Misreads name) : e.qualifier = some qualifier := by
  by_contra differ
  refine read ⟨exposed, isTable, FieldName.dot_mem_of_parse parsed, fun other _ => ?_⟩
  rw [parsed]
  intro same
  exact differ (FieldName.mk.inj same).1.symm

end NameSource

namespace Scope

variable {scope scope' : Scope} {name : String} {db : Database}

/-- A name that is accepted is there. -/
theorem exposures_of_check (h : scope.check name = .ok ()) : 1 ≤ scope.exposures name := by
  unfold exposures
  rcases offers_of_check h with ⟨e, mem, offers⟩ | mem
  · have counted : 0 < scope.entries.countP (·.exposes name) :=
      List.countP_pos_iff.2 ⟨e, mem, NameSource.exposes_of_offers offers⟩
    omega
  · have counted : 0 < scope.computed.count name := List.count_pos_iff.2 mem
    omega

theorem exposures_of_parse_bare {rest : String} (parsed : FieldName.parse name = ⟨none, rest⟩)
    (read : ∀ e ∈ scope.entries, ¬ e.Misreads name) : scope.exposures name = scope.occurrences name := by
  rw [exposures, occurrences, ← List.countP_eq_length_filter]
  congr 1
  apply List.countP_congr
  intro e mem
  rw [NameSource.exposes_of_parse_bare parsed (read e mem)]

theorem exposures_of_parse_qualified {qualifier field : String} (distinct : scope.Distinct)
    (parsed : FieldName.parse name = ⟨some qualifier, field⟩) (none : scope.occurrences name = 0)
    (read : ∀ e ∈ scope.entries, ¬ e.Misreads name) : scope.exposures name ≤ 1 := by
  obtain ⟨noQuery, noComputed⟩ := Nat.add_eq_zero_iff.1 none
  have named : ∀ e ∈ scope.entries, e.exposes name = true → (e.qualifier == some qualifier) = true := by
    intro e mem exposed
    rw [beq_iff_eq]
    refine NameSource.qualifier_of_exposes parsed (fun isQuery => ?_) exposed (read e mem)
    rw [NameSource.exposes_of_query isQuery] at exposed
    have absent := List.filter_eq_nil_iff.1 (List.length_eq_zero_iff.1 noQuery) e mem
    rw [isQuery, exposed] at absent
    exact absent rfl
  have one : scope.entries.countP (·.qualifier == some qualifier) ≤ 1 := by
    rw [← List.count_filterMap]
    exact List.nodup_iff_count_le_one.1 distinct qualifier
  rw [exposures, noComputed]
  exact (List.countP_mono_left named).trans one

/-- A name that several sources or computed fields have is refused, unless their count is passed by. -/
theorem check_of_exposures (distinct : scope.Distinct) (several : 2 ≤ scope.exposures name)
    (counted : ¬ scope.Overlooks name) : scope.check name = .error (.ambiguousField name) := by
  have read : scope.occurrences name ≤ 1 → ∀ e ∈ scope.entries, ¬ e.Misreads name :=
    fun few e mem misread => counted ⟨several, .inr ⟨few, e, mem, misread⟩⟩
  rcases parsed : FieldName.parse name with ⟨_ | qualifier, field⟩
  · have enough : 2 ≤ scope.occurrences name := by
      by_contra notEnough
      have few : scope.occurrences name ≤ 1 := by omega
      rw [exposures_of_parse_bare parsed (read few)] at several
      exact notEnough several
    obtain ⟨more, isCount⟩ := Nat.exists_eq_add_of_le' enough
    rw [check, parsed, isCount]
    rfl
  · have none : scope.occurrences name = 0 := by
      by_contra some
      refine counted ⟨several, .inl ⟨?_, Nat.pos_of_ne_zero some⟩⟩
      rw [parsed]
      exact Option.some_ne_none qualifier
    have one := exposures_of_parse_qualified distinct parsed none (read (none ▸ Nat.zero_le 1))
    omega

theorem occurrences_le_exposures (scope : Scope) (name : String) :
    scope.occurrences name ≤ scope.exposures name := by
  rw [occurrences, exposures, ← List.countP_eq_length_filter]
  apply Nat.add_le_add_right
  apply List.countP_mono_left
  intro e _ counted
  exact NameSource.exposes_of_mem (List.contains_iff_mem.1 (Bool.and_eq_true_iff.1 counted).2)

/-- Only a bare name is refused as ambiguous, and only if it is counted twice. -/
theorem bare_of_ambiguous (h : scope.check name = .error (.ambiguousField name)) :
    (FieldName.parse name).qualifier = none ∧ 2 ≤ scope.occurrences name := by
  rcases parsed : FieldName.parse name with ⟨_ | qualifier, field⟩
  · refine ⟨rfl, ?_⟩
    rcases count : scope.occurrences name with _ | _ | more
    · rw [check, parsed, count] at h
      cases h
    · rw [check, parsed, count] at h
      cases h
    · omega
  · rcases count : scope.occurrences name with _ | more
    · simp only [check, parsed, count] at h
      split at h
      · cases h
      · split at h
        · cases h
        · cases h
    · rw [check, parsed, count] at h
      cases h

/-- Only a name with several meanings is refused as ambiguous, and none of which the count is passed by. -/
theorem exposures_of_ambiguous (h : scope.check name = .error (.ambiguousField name)) :
    2 ≤ scope.exposures name ∧ ¬ scope.Overlooks name := by
  obtain ⟨isBare, several⟩ := bare_of_ambiguous h
  refine ⟨several.trans (occurrences_le_exposures scope name), ?_⟩
  rintro ⟨-, ⟨isQualified, -⟩ | ⟨few, -⟩⟩
  · exact isQualified isBare
  · omega

/-- An accepted name has one meaning, or the count of its meanings is passed by. -/
theorem exposures_eq_one (distinct : scope.Distinct) (h : scope.check name = .ok ()) :
    scope.exposures name = 1 ∨ scope.Overlooks name := by
  by_cases counted : scope.Overlooks name
  · exact .inr counted
  · have some := exposures_of_check h
    have notSeveral : ¬ 2 ≤ scope.exposures name := by
      intro several
      rw [check_of_exposures distinct several counted] at h
      cases h
    exact .inl (by omega)

end Scope

/-! ## The order in which names are looked up -/

/-- One thing that opening a query does about names. -/
inductive NameStep where
  | table (name : String) (alias? : Option String)
  | query (q : Query)
  | reference (name : String)
  | computed (name : String)

namespace NameStep

def ofSource : FromItem Query → NameStep
  | .table name alias? => .table name alias?
  | .query q => .query q

def ofTree (tree : Tree) : List NameStep := tree.names.map .reference

def ofJoin (clause : JoinClause) : List NameStep :=
  .table clause.table clause.alias? :: ofTree clause.on

def ofComputed : SelectItem → List NameStep
  | .computed value name => ofTree value ++ [.computed name]
  | _ => []

def ofField : SelectItem → List NameStep
  | .field name => [.reference name]
  | _ => []

end NameStep

/-- First the sources, then each joined table with its condition, the computed fields, and when all names are
known the other fields and the filter. -/
def Query.nameSteps (q : Query) : List NameStep :=
  q.sources.map NameStep.ofSource ++ q.joins.flatMap NameStep.ofJoin ++
    q.items.flatMap NameStep.ofComputed ++ q.items.flatMap NameStep.ofField ++
    q.filter.toList.flatMap NameStep.ofTree

/-- The references are those of the conditions of joins, of computed fields, of the other fields and of the
filter. -/
theorem Query.reference_mem_nameSteps {q : Query} {name : String} :
    .reference name ∈ q.nameSteps ↔
      (∃ clause ∈ q.joins, name ∈ clause.on.names) ∨
      (∃ value other, .computed value other ∈ q.items ∧ name ∈ value.names) ∨
      .field name ∈ q.items ∨ ∃ tree ∈ q.filter, name ∈ tree.names := by
  have fromSource : ∀ source, NameStep.ofSource source ≠ .reference name := by
    rintro (_ | _) ⟨⟩
  have fromTree : ∀ tree, .reference name ∈ NameStep.ofTree tree ↔ name ∈ tree.names := by
    simp [NameStep.ofTree]
  have fromJoin : ∀ clause, .reference name ∈ NameStep.ofJoin clause ↔ name ∈ clause.on.names := by
    simp [NameStep.ofJoin, fromTree]
  have fromComputed : ∀ item, .reference name ∈ NameStep.ofComputed item ↔
      ∃ value other, item = .computed value other ∧ name ∈ value.names := by
    rintro (_ | _ | _) <;> simp [NameStep.ofComputed, fromTree]
  have fromField : ∀ item, .reference name ∈ NameStep.ofField item ↔ item = .field name := by
    rintro (_ | other | _) <;> simp [NameStep.ofField, eq_comm]
  simp [nameSteps, fromSource, fromJoin, fromComputed, fromField, fromTree]

namespace Scope

variable {db : Database} {scope scope' : Scope} {name : String}

/-- A step looks a name up or adds names to those in sight. -/
def step (db : Database) (scope : Scope) : NameStep → Checked Scope
  | .table name alias? => scope.addTable db name alias?
  | .query q => return scope.addQuery (← db.query q).fields
  | .reference name => do
    scope.check name
    return scope
  | .computed name => scope.addComputed name

def run (db : Database) (scope : Scope) (steps : List NameStep) : Checked Scope :=
  steps.foldlM (step db) scope

theorem run_append (before after : List NameStep) :
    scope.run db (before ++ after) = scope.run db before >>= fun scope => scope.run db after :=
  List.foldlM_append

theorem run_references (names : List String) :
    scope.run db (names.map .reference) = names.forM scope.check >>= fun _ => return scope := by
  induction names with
  | nil => rfl
  | cons name names ih =>
    rw [List.map_cons, run, List.foldlM_cons, step, List.forM]
    cases scope.check name with
    | error e => rfl
    | ok a => exact ih

theorem run_tree (tree : Tree) :
    scope.run db (NameStep.ofTree tree) = scope.checkTree tree >>= fun _ => return scope := by
  rw [NameStep.ofTree, run_references, checkTree_eq_forM]

theorem run_join (clause : JoinClause) :
    scope.run db (NameStep.ofJoin clause) = Query.checkJoin db scope clause := by
  rw [NameStep.ofJoin, run, List.foldlM_cons, step, Query.checkJoin]
  cases scope.addTable db clause.table clause.alias? with
  | error e => rfl
  | ok scope => exact run_tree clause.on

theorem run_computed (item : SelectItem) :
    scope.run db (NameStep.ofComputed item) = Query.checkItem scope item := by
  cases item with
  | all => rfl
  | field name => rfl
  | computed value name =>
    rw [NameStep.ofComputed, run_append, run_tree, Query.checkItem]
    cases scope.checkTree value with
    | error e => rfl
    | ok a =>
      change step db scope (.computed name) >>= pure = _
      exact bind_pure _

theorem run_flatMap {α : Type} (f : α → List NameStep) (l : List α) :
    scope.run db (l.flatMap f) = l.foldlM (fun scope a => scope.run db (f a)) scope := by
  induction l generalizing scope with
  | nil => rfl
  | cons a l ih =>
    rw [List.flatMap_cons, run_append, List.foldlM_cons]
    congr 1
    funext scope
    exact ih

theorem run_fields (items : List SelectItem) :
    scope.run db (items.flatMap NameStep.ofField) =
      (items.forM fun
        | .field name => scope.check name
        | _ => .ok ()) >>= fun _ => return scope := by
  induction items with
  | nil => rfl
  | cons item items ih =>
    cases item with
    | all => exact ih
    | computed value name => exact ih
    | field name =>
      change List.foldlM (step db) scope (.reference name :: items.flatMap NameStep.ofField) = _
      rw [List.foldlM_cons, step, List.forM]
      cases accepted : scope.check name with
      | error e => simp only [accepted, Checked.error_bind]
      | ok a =>
        simp only [accepted, Checked.ok_bind]
        exact ih

/-- The names are checked step by step. -/
theorem run_checkNames (items : List SelectItem) (joins : List JoinClause) (filter : Option Tree) :
    scope.run db (joins.flatMap NameStep.ofJoin ++ items.flatMap NameStep.ofComputed ++
      items.flatMap NameStep.ofField ++ filter.toList.flatMap NameStep.ofTree) =
        Query.checkNames db scope items joins filter := by
  have joined : scope.run db (joins.flatMap NameStep.ofJoin) =
      joins.foldlM (Query.checkJoin db) scope := by
    rw [run_flatMap]
    congr 1
    funext scope clause
    exact run_join clause
  have computed : ∀ scope : Scope, scope.run db (items.flatMap NameStep.ofComputed) =
      items.foldlM Query.checkItem scope := by
    intro scope
    rw [run_flatMap]
    congr 1
    funext scope item
    exact run_computed item
  have filtered : ∀ scope : Scope, scope.run db (filter.toList.flatMap NameStep.ofTree) =
      filter.forM scope.checkTree >>= fun _ => return scope := by
    intro scope
    cases filter with
    | none => rfl
    | some tree =>
      rw [run_flatMap, Option.toList_some, List.foldlM_cons, run_tree]
      exact bind_pure _
  simp only [run_append, joined, computed, run_fields, filtered, bind_assoc, pure_bind]
  rfl

theorem run_source (source : FromItem Query) :
    scope.step db (.ofSource source) = (Query.openSource db source scope).map Prod.fst := by
  cases source with
  | table name alias? =>
    rw [NameStep.ofSource, step, Query.openSource]
    cases added : scope.addTable db name alias? with
    | error e => rfl
    | ok scope' =>
      obtain ⟨view, isView, -⟩ := addTable_eq_ok added
      rw [Checked.ok_bind, isView]
      rfl
  | query q =>
    rw [NameStep.ofSource, step, Query.openSource, Database.query]
    cases q.openOn db with
    | error e => rfl
    | ok opened => rfl

theorem run_sources (sources : List (FromItem Query)) :
    scope.run db (sources.map NameStep.ofSource) =
      (Query.openSources db sources scope).map Prod.fst := by
  induction sources generalizing scope with
  | nil => rfl
  | cons source sources ih =>
    rw [List.map_cons, run, List.foldlM_cons, run_source, Query.openSources]
    cases Query.openSource db source scope with
    | error e => rfl
    | ok first =>
      have others : first.1.run db (sources.map NameStep.ofSource) =
          (Query.openSources db sources first.1).map Prod.fst := ih
      refine others.trans ?_
      simp only [Checked.ok_bind]
      cases Query.openSources db sources first.1 with
      | error e => rfl
      | ok rest => rfl

theorem run_nameSteps (q : Query) :
    scope.run db q.nameSteps = Query.openSources db q.sources scope >>= fun opened =>
      Query.checkNames db opened.1 q.items q.joins q.filter := by
  have split : q.nameSteps = q.sources.map NameStep.ofSource ++
      (q.joins.flatMap NameStep.ofJoin ++ q.items.flatMap NameStep.ofComputed ++
        q.items.flatMap NameStep.ofField ++ q.filter.toList.flatMap NameStep.ofTree) := by
    simp only [Query.nameSteps, List.append_assoc]
  rw [split, run_append, run_sources]
  cases Query.openSources db q.sources scope with
  | error e => rfl
  | ok opened => exact run_checkNames q.items q.joins q.filter

/-! ## Tables keep their qualifiers apart -/

theorem distinct_step {nameStep : NameStep} (distinct : scope.Distinct)
    (h : scope.step db nameStep = .ok scope') : scope'.Distinct := by
  cases nameStep with
  | table name alias? =>
    obtain ⟨view, -, rfl, free⟩ := addTable_eq_ok h
    rw [Distinct, List.filterMap_append, List.nodup_append']
    refine ⟨distinct, List.nodup_singleton _, fun qualifier old new => ?_⟩
    obtain ⟨e, mem, isQualifier⟩ := List.mem_filterMap.1 old
    cases List.mem_singleton.1 new
    exact free e mem isQualifier
  | query q =>
    obtain ⟨opened, -, eq⟩ := Checked.bind_eq_ok.1 h
    cases eq
    rw [Distinct, addQuery, List.filterMap_append]
    exact (List.append_nil _).symm ▸ distinct
  | reference name =>
    obtain ⟨_, -, eq⟩ := Checked.bind_eq_ok.1 h
    cases eq
    exact distinct
  | computed name =>
    obtain ⟨rfl, -⟩ := addComputed_eq_ok h
    exact distinct

theorem distinct_run {steps : List NameStep} (distinct : scope.Distinct)
    (h : scope.run db steps = .ok scope') : scope'.Distinct := by
  induction steps generalizing scope with
  | nil =>
    cases h
    exact distinct
  | cons nameStep steps ih =>
    obtain ⟨between, isStep, isRun⟩ := Checked.bind_eq_ok.1 h
    exact ih (distinct_step distinct isStep) isRun

theorem distinct_of_run {steps : List NameStep} (h : Scope.empty.run db steps = .ok scope) :
    scope.Distinct := by
  have none : Scope.empty.Distinct := List.nodup_nil
  exact distinct_run none h

end Scope

/-! ## References of a query and its subqueries -/

namespace Query

variable {db : Database} {q inner : Query} {opened : OpenQuery} {scope : Scope} {name : String}

/-- The query itself, a query among its sources, or one that is contained in such a source. -/
inductive Contains : Query → Query → Prop where
  | self (q : Query) : Contains q q
  | source {q middle inner : Query} (mem : .query middle ∈ q.sources)
    (contains : Contains middle inner) : Contains q inner

/-- Opening the query comes to the reference, in it or in a subquery, with these names in sight. -/
inductive ComesTo (db : Database) : Query → Scope → String → Prop where
  | reference {q : Query} {before after : List NameStep} {scope : Scope} {name : String}
    (selects : q.items ≠ []) (split : q.nameSteps = before ++ .reference name :: after)
    (run : Scope.empty.run db before = .ok scope) : ComesTo db q scope name
  | nested {q inner : Query} {before after : List NameStep} {outer scope : Scope} {name : String}
    (selects : q.items ≠ []) (split : q.nameSteps = before ++ .query inner :: after)
    (run : Scope.empty.run db before = .ok outer) (comes : ComesTo db inner scope name) :
    ComesTo db q scope name

theorem run_of_query (h : db.query q = .ok opened) :
    ∃ scope, Scope.empty.run db q.nameSteps = .ok scope := by
  obtain ⟨items, sources, joins, filter⟩ := q
  obtain ⟨first, cursors, scope, -, isOpened, isChecked, -⟩ := query_eq_ok h
  refine ⟨scope, ?_⟩
  rw [Scope.run_nameSteps, isOpened]
  exact isChecked

/-- What fails for a name fails the opening. -/
theorem query_of_run {e : Error} (selects : q.items ≠ [])
    (h : Scope.empty.run db q.nameSteps = .error e) : db.query q = .error e := by
  obtain ⟨items, sources, joins, filter⟩ := q
  have notEmpty : items.isEmpty = false := List.isEmpty_eq_false_iff.2 selects
  rw [Scope.run_nameSteps] at h
  rw [Database.query, openOn, notEmpty]
  simp only [Bool.false_eq_true, if_false]
  rcases Checked.bind_eq_error.1 h with notOpened | ⟨⟨first, cursors⟩, isOpened, notChecked⟩
  · simp only [notOpened, Checked.error_bind]
  · simp only [isOpened, Checked.ok_bind, notChecked, Checked.error_bind]

theorem query_of_step {e : Error} {before after : List NameStep} {nameStep : NameStep}
    (selects : q.items ≠ []) (split : q.nameSteps = before ++ nameStep :: after)
    (run : Scope.empty.run db before = .ok scope) (failed : scope.step db nameStep = .error e) :
    db.query q = .error e := by
  apply query_of_run selects
  rw [split, Scope.run_append, run, Checked.ok_bind, Scope.run, List.foldlM_cons, failed]
  rfl

theorem query_of_comesTo {e : Error} (comes : q.ComesTo db scope name)
    (refused : scope.check name = .error e) : db.query q = .error e := by
  induction comes with
  | reference selects split run =>
    apply query_of_step selects split run
    rw [Scope.step, refused]
    rfl
  | nested selects split run comes ih =>
    apply query_of_step selects split run
    rw [Scope.step, ih refused]
    rfl

theorem distinct_of_comesTo (comes : q.ComesTo db scope name) : scope.Distinct := by
  induction comes with
  | reference _ _ run => exact Scope.distinct_of_run run
  | nested _ _ _ _ ih => exact ih

/-- Where a query opens, each of its steps is made. -/
theorem step_of_query {before after : List NameStep} {nameStep : NameStep}
    (h : db.query q = .ok opened) (split : q.nameSteps = before ++ nameStep :: after) :
    ∃ scope next, Scope.empty.run db before = .ok scope ∧ scope.step db nameStep = .ok next := by
  obtain ⟨last, isRun⟩ := run_of_query h
  rw [split, Scope.run_append] at isRun
  obtain ⟨scope, isScope, rest⟩ := Checked.bind_eq_ok.1 isRun
  obtain ⟨next, isStep, -⟩ := Checked.bind_eq_ok.1 rest
  exact ⟨scope, next, isScope, isStep⟩

theorem opens_of_contains (contains : q.Contains inner) (h : db.query q = .ok opened) :
    ∃ opened, db.query inner = .ok opened := by
  induction contains generalizing opened with
  | self q => exact ⟨opened, h⟩
  | @source q middle _ mem _ ih =>
    have isStep : .query middle ∈ q.nameSteps := by
      simp only [nameSteps, List.append_assoc]
      exact List.mem_append_left _ (List.mem_map_of_mem mem)
    obtain ⟨before, after, split⟩ := List.append_of_mem isStep
    obtain ⟨scope, next, -, isOpened⟩ := step_of_query h split
    obtain ⟨between, opens, -⟩ := Checked.bind_eq_ok.1 isOpened
    exact ih opens

theorem check_of_query {before after : List NameStep} (h : db.query q = .ok opened)
    (split : q.nameSteps = before ++ .reference name :: after) :
    ∃ scope, Scope.empty.run db before = .ok scope ∧ scope.check name = .ok () := by
  obtain ⟨scope, next, isScope, isStep⟩ := step_of_query h split
  obtain ⟨_, accepted, -⟩ := Checked.bind_eq_ok.1 isStep
  exact ⟨scope, isScope, accepted⟩

end Query

/-- Where a query opens, each reference in it and in its subqueries has one meaning among the names that are in
sight when it is checked. If the opening comes to a reference with several it is refused as ambiguous. Both
are up to names with several meanings whose count is passed by. Neither such a name nor one with a single meaning
is ever refused as ambiguous. -/
theorem Database.references_exact (db : Database) (q : Query) :
    (∀ opened, db.query q = .ok opened → ∀ inner, q.Contains inner → ∀ before name after,
      inner.nameSteps = before ++ .reference name :: after →
        ∃ scope, Scope.empty.run db before = .ok scope ∧ scope.check name = .ok () ∧
          (scope.exposures name = 1 ∨ scope.Overlooks name)) ∧
    ∀ scope name, q.ComesTo db scope name →
      (2 ≤ scope.exposures name → ¬ scope.Overlooks name →
        db.query q = .error (.ambiguousField name)) ∧
      (scope.check name = .error (.ambiguousField name) →
        2 ≤ scope.exposures name ∧ ¬ scope.Overlooks name) := by
  constructor
  · intro opened opens inner contains before name after split
    obtain ⟨own, opensInner⟩ := Query.opens_of_contains contains opens
    obtain ⟨scope, isScope, accepted⟩ := Query.check_of_query opensInner split
    exact ⟨scope, isScope, accepted, Scope.exposures_eq_one (Scope.distinct_of_run isScope) accepted⟩
  · intro scope name comes
    refine ⟨fun several counted => ?_, Scope.exposures_of_ambiguous⟩
    exact Query.query_of_comesTo comes
      (Scope.check_of_exposures (Query.distinct_of_comesTo comes) several counted)

/-- Two queries in the place of tables whose output has the same qualified name. -/
def Query.sameOutputs : Query :=
  let part : Query := ⟨[.field "t.a"], [.table "t" none], [], none⟩
  ⟨[.field "t.a"], [.query part, .query part], [], none⟩

/-- A bare name of two tables is refused, a qualified one of two queries is not. -/
theorem Database.references_exact_twoTables :
    twoTables.query ⟨[.field "a"], [.table "t" none, .table "t" (some "v")], [], none⟩ =
      .error (.ambiguousField "a") ∧
    ∃ (opened : OpenQuery) (scope : Scope), twoTables.query .sameOutputs = .ok opened ∧
      scope.check "t.a" = .ok () ∧ scope.exposures "t.a" = 2 ∧ scope.Overlooks "t.a" := by
  constructor
  · let scope : Scope := ⟨[⟨some "t", ["a"]⟩, ⟨some "v", ["a"]⟩], []⟩
    have comes : Query.ComesTo twoTables ⟨[.field "a"], [.table "t" none, .table "t" (some "v")], [], none⟩
        scope "a" := by
      have split : [.table "t" none, .table "t" (some "v"), .reference "a"] =
          [NameStep.table "t" none, .table "t" (some "v")] ++ .reference "a" :: [] := rfl
      exact .reference nofun split rfl
    have counted : ¬ scope.Overlooks "a" := by
      rintro ⟨-, qualified | ⟨-, e, mem, misread⟩⟩
      · exact absurd qualified.1 (by decide +kernel)
      · exact absurd misread.2.2.1 (by decide +kernel)
    exact ((references_exact twoTables _).2 scope "a" comes).1 (by decide +kernel) counted
  · have isSome : (twoTables.query .sameOutputs).toOption.isSome = true := by decide +kernel
    obtain ⟨opened, isOpened⟩ := Option.isSome_iff_exists.1 isSome
    rw [Checked.toOption_eq_some] at isOpened
    obtain ⟨scope, isScope, accepted, meaning⟩ := (references_exact twoTables .sameOutputs).1 opened isOpened
      .sameOutputs (.self _) (Query.sameOutputs.sources.map .ofSource) "t.a" [] rfl
    have several : (Scope.empty.run twoTables (Query.sameOutputs.sources.map .ofSource)).map
        (·.exposures "t.a") = .ok 2 := by
      decide +kernel
    rw [isScope] at several
    have isTwo : scope.exposures "t.a" = 2 := Except.ok.inj several
    rw [isTwo] at meaning
    exact ⟨opened, scope, isOpened, accepted, isTwo, meaning.resolve_left (by decide)⟩

end RelEngine
