import Mathlib.Data.List.Nodup
import RelEngine.Proofs.Checked
import RelEngine.Proofs.Relation.Shows
import RelEngine.Query.Scope

/-!
The names in sight of a query as the heading of a relation.

A checked name stands for just one column of it, provided that all sources are tables and no name has a
dot.
-/
namespace RelEngine

/-- The columns of a source. -/
def NameSource.columns (e : NameSource) : List FieldName :=
  e.fields.map fun field => ⟨e.qualifier, field⟩

namespace Scope

/-- The columns of the sources and the joined tables. -/
def sourceColumns (scope : Scope) : List FieldName := scope.entries.flatMap NameSource.columns

/-- All columns in sight. -/
def heading (scope : Scope) : List FieldName :=
  scope.sourceColumns ++ scope.computed.map fun name => ⟨none, name⟩

/-- All sources are tables, names have no dots, and a computed column is called like no other one. -/
structure Tidy (scope : Scope) : Prop where
  qualified : ∀ e ∈ scope.entries, ∃ q, e.qualifier = some q ∧ FieldName.Plain q
  distinct : (scope.entries.map (·.qualifier)).Nodup
  fields : ∀ e ∈ scope.entries, e.fields.Nodup ∧ ∀ f ∈ e.fields, FieldName.Plain f
  computed : ∀ name ∈ scope.computed, FieldName.Plain name ∧ Relation.Unique scope.heading name

theorem tidy_empty : Scope.empty.Tidy :=
  ⟨nofun, List.nodup_nil, nofun, nofun⟩

namespace Tidy

variable {scope : Scope} {name : String}

theorem plain (h : scope.Tidy) {column : FieldName} (mem : column ∈ scope.heading) :
    FieldName.Plain column.field := by
  rcases List.mem_append.1 mem with mem | mem
  · obtain ⟨e, he, mem⟩ := List.mem_flatMap.1 mem
    obtain ⟨f, hf, rfl⟩ := List.mem_map.1 mem
    exact (h.fields e he).2 f hf
  · obtain ⟨name, hname, rfl⟩ := List.mem_map.1 mem
    exact (h.computed name hname).1

/-! ## Qualified names -/

theorem nodup_sourceColumns (h : scope.Tidy) : scope.sourceColumns.Nodup := by
  refine List.nodup_flatMap.2 ⟨fun e mem => ?_, ?_⟩
  · exact (h.fields e mem).1.map fun a b eq => (FieldName.mk.inj eq).2
  · refine (List.pairwise_map.1 h.distinct).imp fun differ column left right => ?_
    obtain ⟨_, _, rfl⟩ := List.mem_map.1 left
    obtain ⟨_, _, eq⟩ := List.mem_map.1 right
    exact differ (FieldName.mk.inj eq).1.symm

theorem unique_of_parse_qualified (h : scope.Tidy) {q f : String}
    (parsed : FieldName.parse name = ⟨some q, f⟩) (mem : FieldName.mk (some q) f ∈ scope.sourceColumns) :
    Relation.Unique scope.heading name := by
  have same : scope.heading.countP (·.isNamed name) = scope.heading.count ⟨some q, f⟩ :=
    List.countP_congr fun column mem => by
      rw [FieldName.isNamed_of_parse_qualified parsed (h.plain mem)]
  have notComputed : FieldName.mk (some q) f ∉
      scope.computed.map fun name => FieldName.mk none name := by
    intro mem
    obtain ⟨_, _, eq⟩ := List.mem_map.1 mem
    exact nomatch (FieldName.mk.inj eq).1
  rw [Relation.Unique, same, heading, List.count_append,
    List.count_eq_one_of_mem h.nodup_sourceColumns mem, List.count_eq_zero_of_not_mem notComputed]

theorem occurrences_of_dot (h : scope.Tidy) (dot : '.' ∈ name.toList) :
    scope.occurrences name = 0 := by
  have fromSources : (scope.entries.filter fun e =>
      (e.qualifier.isNone || !name.toList.contains '.') && e.fields.contains name) = [] := by
    rw [List.filter_eq_nil_iff]
    intro e mem
    obtain ⟨q, eq, _⟩ := h.qualified e mem
    rw [eq, List.contains_iff_mem.2 dot]
    simp
  have fromComputed : scope.computed.count name = 0 :=
    List.count_eq_zero_of_not_mem fun mem => (h.computed name mem).1.2 dot
  rw [occurrences, fromSources, fromComputed]
  rfl

/-! ## Bare names -/

theorem countP_columns {e : NameSource} (nodup : e.fields.Nodup) :
    e.columns.countP (·.field == name) = if e.fields.contains name then 1 else 0 := by
  have same : e.columns.countP (·.field == name) = e.fields.count name := by
    rw [NameSource.columns, List.countP_map]
    rfl
  rw [same, nodup.count, List.contains_eq_mem]
  simp

/-- A bare name occurs as often as columns are called so. -/
theorem countP_eq_occurrences (h : scope.Tidy) :
    scope.heading.countP (·.field == name) = scope.occurrences name := by
  have fromComputed : (scope.computed.map fun name => FieldName.mk none name).countP
      (·.field == name) = scope.computed.count name := by
    rw [List.countP_map]
    rfl
  rw [heading, List.countP_append, fromComputed, occurrences, sourceColumns]
  congr 1
  have fields := h.fields
  generalize scope.entries = entries at fields
  induction entries with
  | nil => rfl
  | cons e entries ih =>
    obtain ⟨nodup, plain⟩ := fields e List.mem_cons_self
    rw [List.flatMap_cons, List.countP_append, countP_columns nodup,
      ih fun e mem => fields e (List.mem_cons_of_mem _ mem), List.filter_cons]
    by_cases mem : name ∈ e.fields
    · have noDot : name.toList.contains '.' = false := by
        rw [← Bool.not_eq_true, List.contains_iff_mem]
        exact (plain name mem).2
      rw [List.contains_iff_mem.2 mem, noDot]
      simp [Nat.add_comm]
    · have absent : e.fields.contains name = false := by
        rw [← Bool.not_eq_true, List.contains_iff_mem]
        exact mem
      rw [absent]
      simp

theorem countP_of_parse_bare (h : scope.Tidy) {rest : String}
    (parsed : FieldName.parse name = ⟨none, rest⟩) :
    scope.heading.countP (·.isNamed name) = scope.occurrences name := by
  rw [← h.countP_eq_occurrences]
  exact List.countP_congr fun column _ => by rw [FieldName.isNamed_of_parse_bare parsed]

/-- A name that was accepted stands for just one column. -/
theorem unique_of_check (h : scope.Tidy) (accepted : scope.check name = .ok ()) :
    Relation.Unique scope.heading name := by
  rcases parsed : FieldName.parse name with ⟨_ | q, f⟩
  · rw [Relation.Unique, h.countP_of_parse_bare parsed]
    rw [check, parsed] at accepted
    rcases count : scope.occurrences name with _ | _ | n
    · rw [count] at accepted
      cases accepted
    · rfl
    · rw [count] at accepted
      cases accepted
  · refine h.unique_of_parse_qualified parsed ?_
    rw [check, parsed, h.occurrences_of_dot (FieldName.dot_mem_of_parse parsed)] at accepted
    simp only at accepted
    cases found : scope.entries.find? (·.qualifier == some q) with
    | none =>
      rw [found] at accepted
      cases accepted
    | some e =>
      simp only [found] at accepted
      split at accepted
      · next has =>
        have named := List.find?_some found
        have isQ : e.qualifier = some q := eq_of_beq named
        refine List.mem_flatMap.2 ⟨e, List.mem_of_find?_eq_some found, ?_⟩
        rw [NameSource.columns, isQ]
        exact List.mem_map_of_mem (List.contains_iff_mem.1 has)
      · cases accepted

end Tidy

/-! ## Growing scopes -/

variable {scope scope' : Scope} {db : Database} {name : String} {alias? : Option String}

theorem addTable_eq_ok (h : scope.addTable db name alias? = .ok scope') :
    ∃ view, db.view name alias? = .ok view ∧
      scope' = { scope with
        entries := scope.entries ++ [⟨some view.qualifier, view.schema.names⟩] } ∧
      ∀ e ∈ scope.entries, e.qualifier ≠ some view.qualifier := by
  obtain ⟨schema, isSchema, h⟩ := Checked.bind_eq_ok.1 h
  obtain ⟨table, isTable, eq⟩ := Checked.bind_eq_ok.1 isSchema
  cases eq
  refine ⟨⟨alias?.getD name, table.schema, table.store⟩, by rw [Database.view, isTable]; rfl, ?_⟩
  simp only at h
  split at h
  · exact nomatch h
  · split at h
    · exact nomatch h
    · next free =>
      refine ⟨(Except.ok.inj h).symm, fun e mem taken => free ?_⟩
      exact List.any_eq_true.2 ⟨e, mem, beq_iff_eq.2 taken⟩

/-- A table whose names have no dots keeps a scope tidy and adds its columns to it. -/
theorem Tidy.addTable (h : scope.Tidy) (noComputed : scope.computed = []) {view : TableView}
    (plainQualifier : FieldName.Plain view.qualifier)
    (plain : ∀ c ∈ view.schema.names, FieldName.Plain c)
    (free : ∀ e ∈ scope.entries, e.qualifier ≠ some view.qualifier) :
    Tidy { scope with entries := scope.entries ++ [⟨some view.qualifier, view.schema.names⟩] } where
  qualified e mem := by
    rcases List.mem_append.1 mem with mem | mem
    · exact h.qualified e mem
    · rw [List.mem_singleton.1 mem]
      exact ⟨_, rfl, plainQualifier⟩
  distinct := by
    rw [List.map_append, List.nodup_append']
    refine ⟨h.distinct, List.nodup_singleton _, fun q old new => ?_⟩
    obtain ⟨e, mem, rfl⟩ := List.mem_map.1 old
    exact free e mem (List.mem_singleton.1 new)
  fields e mem := by
    rcases List.mem_append.1 mem with mem | mem
    · exact h.fields e mem
    · rw [List.mem_singleton.1 mem]
      exact ⟨view.schema.nodup, plain⟩
  computed name mem := by
    rw [noComputed] at mem
    exact nomatch mem

theorem sourceColumns_addTable (scope : Scope) (view : TableView) :
    sourceColumns { scope with
      entries := scope.entries ++ [⟨some view.qualifier, view.schema.names⟩] } =
        scope.sourceColumns ++ view.schema.names.map fun c => ⟨some view.qualifier, c⟩ := by
  rw [sourceColumns, List.flatMap_append, List.flatMap_singleton]
  rfl

theorem addComputed_eq_ok (h : scope.addComputed name = .ok scope') :
    scope' = { scope with computed := scope.computed ++ [name] } ∧ scope.occurrences name = 0 := by
  rw [addComputed] at h
  split at h
  · exact nomatch h
  · next none => exact ⟨(Except.ok.inj h).symm, Nat.eq_zero_of_not_pos none⟩

theorem heading_addComputed (scope : Scope) (name : String) :
    heading { scope with computed := scope.computed ++ [name] } = scope.heading ++ [⟨none, name⟩] := by
  rw [heading, List.map_append, ← List.append_assoc]
  rfl

theorem Tidy.addComputed (h : scope.Tidy) (plain : FieldName.Plain name)
    (free : scope.occurrences name = 0) :
    Tidy { scope with computed := scope.computed ++ [name] } where
  qualified := h.qualified
  distinct := h.distinct
  fields := h.fields
  computed other mem := by
    have count : ∀ other, (heading { scope with computed := scope.computed ++ [name] }).countP
        (·.isNamed other) =
          scope.heading.countP (·.isNamed other) + if name == other then 1 else 0 := by
      intro other
      rw [heading_addComputed, List.countP_append, List.countP_singleton,
        FieldName.isNamed_computed]
    rw [Relation.Unique, count]
    rcases List.mem_append.1 mem with mem | mem
    · obtain ⟨plainOther, unique⟩ := h.computed other mem
      have differ : (name == other) = false := by
        rw [beq_eq_false_iff_ne]
        rintro rfl
        have none := h.countP_of_parse_bare (FieldName.parse_of_no_dot plain.2)
        rw [unique, free] at none
        cases none
      rw [unique, differ]
      exact ⟨plainOther, rfl⟩
    · rw [List.mem_singleton.1 mem, h.countP_of_parse_bare (FieldName.parse_of_no_dot plain.2), free,
        beq_self_eq_true]
      exact ⟨plain, rfl⟩

/-! ## Names in trees -/

mutual

/-- A tree is checked by checking its names in order. -/
theorem checkTree_eq_forM : (tree : Tree) → scope.checkTree tree = tree.names.forM scope.check
  | .const _ => rfl
  | .field name => by
    rw [checkTree, Tree.names, List.forM]
    cases scope.check name with
    | error e => rfl
    | ok a => rfl
  | .apply _ operands => checkTrees_eq_forM operands
  | .negate operand => checkTree_eq_forM operand
  | .not operand => checkTree_eq_forM operand

theorem checkTrees_eq_forM : (trees : List Tree) →
    scope.checkTrees trees = (Tree.namesOfAll trees).forM scope.check
  | [] => rfl
  | t :: ts => by
    rw [checkTrees, Tree.namesOfAll, List.forM_eq_forM, List.forM_append, checkTree_eq_forM t,
      checkTrees_eq_forM ts]
    rfl

end

theorem checkTree_eq_ok (tree : Tree) (accepted : scope.checkTree tree = .ok ()) :
    ∀ name ∈ tree.names, scope.check name = .ok () := by
  rw [checkTree_eq_forM] at accepted
  intro name mem
  exact Checked.forM_eq_ok accepted name mem

/-- A tree that was checked and bound goes with the heading of the scope. -/
theorem Tidy.binds (h : scope.Tidy) {tree : Tree} {check : FieldCheck} {e : Expr}
    (accepted : scope.checkTree tree = .ok ()) (bound : tree.bind check = .ok e) :
    Binds scope.heading tree e :=
  ⟨⟨check, bound⟩, fun name mem => h.unique_of_check (checkTree_eq_ok tree accepted name mem)⟩

end Scope

end RelEngine
