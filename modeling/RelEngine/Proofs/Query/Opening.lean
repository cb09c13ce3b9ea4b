import RelEngine.Proofs.Query.Scope
import RelEngine.Proofs.Relation.Mirrors
import RelEngine.Query.Open
import RelEngine.Query.Relation

/-!
What an opening builds, stage by stage: the names in sight, the cursor so far and the relation so far go
together.
-/
namespace RelEngine

/-! ## The plans of cursors -/

namespace Cursor

variable {c c' left right outer inner : Cursor} {stores : Stores}

theorem plan_of_rewound (h : c.rewound stores = .ok c') : c'.plan = c.plan := by
  rw [rewound, rewind, step] at h
  simp only at h
  split at h
  · next eq =>
    cases h
    exact congrArg (fun p => p.2.plan) eq.symm
  · exact nomatch h

theorem plan_of_product (h : left.product right stores = .ok c) :
    c.plan = .product left.plan right.plan :=
  plan_of_rewound h

theorem plan_of_joinOn {flipped : Bool} {predicate : Cursor → Checked Expr}
    (h : joinOn outer inner flipped predicate stores = .ok c) :
    ∃ base e, base.plan = .join outer.plan inner.plan (.const (Value.ofBool true)) flipped ∧
      predicate base = .ok e ∧ c.plan = .join outer.plan inner.plan e flipped := by
  obtain ⟨base, isBase, h⟩ := Checked.bind_eq_ok.1 h
  obtain ⟨e, bound, h⟩ := Checked.bind_eq_ok.1 h
  exact ⟨base, e, plan_of_rewound isBase, bound, plan_of_rewound h⟩

end Cursor

/-! ## Products of several relations -/

namespace Relation

theorem product_unit (r : Relation) : r.product unit = r := by
  cases r with
  | mk heading rows log => simp [product, unit]

theorem product_assoc (a b c : Relation) : (a.product b).product c = a.product (b.product c) := by
  simp [product, List.flatMap_assoc, List.flatMap_map, List.map_flatMap, Function.comp_def]

end Relation

namespace Query

/-- A table whose qualifier and columns have names without dots. -/
def PlainTable (db : Database) (name : String) (alias? : Option String) : Prop :=
  ∀ view, db.view name alias? = .ok view →
    FieldName.Plain view.qualifier ∧ ∀ c ∈ view.schema.names, FieldName.Plain c

instance (db : Database) (name : String) (alias? : Option String) :
    Decidable (PlainTable db name alias?) :=
  match h : db.view name alias? with
  | .error _ => isTrue fun view eq => nomatch h.symm.trans eq
  | .ok view =>
    decidable_of_iff (FieldName.Plain view.qualifier ∧ ∀ c ∈ view.schema.names, FieldName.Plain c)
      ⟨fun plain other eq => by rwa [← Except.ok.inj (h.symm.trans eq)], fun plain => plain view h⟩

/-- All sources are tables, and no name of theirs or of a computed column is empty or has a dot. -/
structure Plain (db : Database) (q : Query) : Prop where
  sources : ∀ source ∈ q.sources, ∃ name alias?, source = .table name alias? ∧
    PlainTable db name alias?
  joins : ∀ clause ∈ q.joins, PlainTable db clause.table clause.alias?
  computed : ∀ value name, SelectItem.computed value name ∈ q.items → FieldName.Plain name

/-- The columns that a table adds. -/
def viewColumns (view : TableView) : List FieldName :=
  view.schema.names.map fun c => ⟨some view.qualifier, c⟩

/-- The product of some tables. -/
def tableProduct (stores : Stores) (views : List TableView) : Relation :=
  views.foldr (fun view r => (Relation.ofTable view stores).product r) .unit

/-- Whether the cursor so far has the rows of the relation so far. There is no cursor before the first
source. -/
def Matches (stores : Stores) : Option Cursor → Relation → Prop
  | none, r => r = .unit
  | some c, r => Mirrors stores c.plan r

/-- A stage of opening a query. -/
structure Stage (stores : Stores) (scope : Scope) (rows : Option Cursor) (r : Relation) : Prop where
  tidy : scope.Tidy
  heading : r.heading = scope.heading
  rows : Matches stores rows r

variable {db : Database} {scope scope' : Scope} {rows rows' : Option Cursor} {r : Relation}

/-! ## Sources -/

theorem heading_tableProduct (stores : Stores) (views : List TableView) :
    (tableProduct stores views).heading = views.flatMap viewColumns := by
  induction views with
  | nil => rfl
  | cons view views ih =>
    rw [List.flatMap_cons, ← ih]
    rfl

theorem matches_joinSources {views : List TableView}
    (plain : ∀ view ∈ views, ∀ c ∈ view.schema.names, FieldName.Plain c)
    (h : joinSources db (views.map Cursor.table) = .ok rows) :
    Matches db.stores rows (tableProduct db.stores views) := by
  have folded : ∀ (views : List TableView) (first c : Cursor) (r : Relation),
      (∀ view ∈ views, ∀ c ∈ view.schema.names, FieldName.Plain c) →
      Mirrors db.stores first.plan r →
      (views.map Cursor.table).foldlM (fun left right => left.product right db.stores) first = .ok c →
      Mirrors db.stores c.plan (r.product (tableProduct db.stores views)) := by
    intro views
    induction views with
    | nil =>
      intro first c r _ mirrors h
      cases h
      rw [show tableProduct db.stores [] = .unit from rfl, Relation.product_unit]
      exact mirrors
    | cons view views ih =>
      intro first c r plain mirrors h
      obtain ⟨next, made, h⟩ := Checked.bind_eq_ok.1 h
      rw [show tableProduct db.stores (view :: views) =
        (Relation.ofTable view db.stores).product (tableProduct db.stores views) from rfl,
        ← Relation.product_assoc]
      refine ih next c _ (fun v mem => plain v (List.mem_cons_of_mem _ mem)) ?_ h
      rw [Cursor.plan_of_product made]
      exact mirrors.product (.ofTable (plain view List.mem_cons_self))
  cases views with
  | nil =>
    cases h
    rfl
  | cons view views =>
    obtain ⟨c, isFold, eq⟩ := Checked.bind_eq_ok.1 h
    cases eq
    exact folded views (.table view) c _ (fun v mem => plain v (List.mem_cons_of_mem _ mem))
      (.ofTable (plain view List.mem_cons_self)) isFold

theorem openSources_eq_ok {sources : List (FromItem Query)} {cursors : List Cursor}
    (tables : ∀ source ∈ sources, ∃ name alias?, source = .table name alias? ∧
      PlainTable db name alias?)
    (tidy : scope.Tidy) (noComputed : scope.computed = [])
    (h : openSources db sources scope = .ok (scope', cursors)) :
    ∃ views : List TableView, cursors = views.map Cursor.table ∧
      sourcesRelation db sources = .ok (tableProduct db.stores views) ∧
      scope'.Tidy ∧ scope'.computed = [] ∧
      scope'.sourceColumns = scope.sourceColumns ++ views.flatMap viewColumns ∧
      ∀ view ∈ views, ∀ c ∈ view.schema.names, FieldName.Plain c := by
  induction sources generalizing scope cursors with
  | nil =>
    cases h
    exact ⟨[], rfl, rfl, tidy, noComputed, (List.append_nil _).symm, nofun⟩
  | cons source sources ih =>
    obtain ⟨name, alias?, rfl, plain⟩ := tables _ List.mem_cons_self
    rw [openSources] at h
    obtain ⟨⟨between, cursor⟩, opened, h⟩ := Checked.bind_eq_ok.1 h
    obtain ⟨⟨last, rest⟩, others, eq⟩ := Checked.bind_eq_ok.1 h
    cases eq
    rw [openSource] at opened
    obtain ⟨added, isAdded, opened⟩ := Checked.bind_eq_ok.1 opened
    obtain ⟨view, isView, rfl, free⟩ := Scope.addTable_eq_ok isAdded
    obtain ⟨again, isAgain, eq⟩ := Checked.bind_eq_ok.1 opened
    cases eq
    rw [isView] at isAgain
    cases isAgain
    obtain ⟨plainQualifier, plainNames⟩ := plain view isView
    obtain ⟨views, rfl, relation, tidy, noComputed, columns, allPlain⟩ :=
      ih (fun source mem => tables source (List.mem_cons_of_mem _ mem))
        (tidy.addTable noComputed plainQualifier plainNames free) noComputed others
    refine ⟨view :: views, rfl, ?_, tidy, noComputed, ?_, ?_⟩
    · rw [sourcesRelation, sourceRelation, tableRelation, isView, relation]
      rfl
    · rw [columns, Scope.sourceColumns_addTable, List.append_assoc]
      rfl
    · intro v mem
      rcases List.mem_cons.1 mem with rfl | mem
      · exact plainNames
      · exact allPlain v mem

theorem stage_of_sources {sources : List (FromItem Query)} {cursors : List Cursor}
    (tables : ∀ source ∈ sources, ∃ name alias?, source = .table name alias? ∧
      PlainTable db name alias?)
    (opened : openSources db sources .empty = .ok (scope, cursors))
    (joined : joinSources db cursors = .ok rows) :
    ∃ r, sourcesRelation db sources = .ok r ∧ Stage db.stores scope rows r ∧
      scope.computed = [] := by
  obtain ⟨views, rfl, relation, tidy, noComputed, columns, plain⟩ :=
    openSources_eq_ok tables Scope.tidy_empty rfl opened
  refine ⟨_, relation, ⟨tidy, ?_, matches_joinSources plain joined⟩, noComputed⟩
  rw [heading_tableProduct, Scope.heading, columns, noComputed, List.map_nil, List.append_nil]
  rfl

/-! ## Joins -/

theorem Stage.join {clause : JoinClause} {c : Cursor} (stage : Stage db.stores scope rows r)
    (noComputed : scope.computed = []) (plain : PlainTable db clause.table clause.alias?)
    (added : scope.addTable db clause.table clause.alias? = .ok scope')
    (checked : scope'.checkTree clause.on = .ok ())
    (joined : addJoin db rows clause = .ok c) :
    ∃ r', joinRelation db r clause = .ok r' ∧ Stage db.stores scope' (some c) r' ∧
      scope'.computed = [] := by
  obtain ⟨view, isView, rfl, free⟩ := Scope.addTable_eq_ok added
  obtain ⟨plainQualifier, plainNames⟩ := plain view isView
  have tidy := stage.tidy.addTable noComputed plainQualifier plainNames free
  generalize isScope : Scope.mk (scope.entries ++ [⟨some view.qualifier, view.schema.names⟩])
    scope.computed = scope' at checked tidy
  have heading : r.heading ++ (Relation.ofTable view db.stores).heading = scope'.heading := by
    rw [stage.heading, ← isScope, Scope.heading, Scope.heading, Scope.sourceColumns_addTable,
      noComputed, List.map_nil, List.append_nil, List.append_nil]
    rfl
  have noComputed' : scope'.computed = [] := isScope ▸ noComputed
  have binds : ∀ {check e}, clause.on.bind check = .ok e →
      Binds (r.heading ++ (Relation.ofTable view db.stores).heading) clause.on e :=
    fun bound => heading ▸ tidy.binds checked bound
  cases rows with
  | none => cases joined
  | some left =>
    have hl : Mirrors db.stores left.plan r := stage.rows
    have hr : Mirrors db.stores (.table view) (.ofTable view db.stores) := .ofTable plainNames
    simp only [addJoin, isView, Checked.ok_bind] at joined
    simp only [joinRelation, tableRelation, isView, Checked.ok_bind]
    cases kind : clause.kind with
    | inner =>
      simp only [kind] at joined
      obtain ⟨product, isProduct, joined⟩ := Checked.bind_eq_ok.1 joined
      obtain ⟨e, bound, eq⟩ := Checked.bind_eq_ok.1 joined
      cases eq
      refine ⟨_, rfl, ⟨tidy, heading, ?_⟩, noComputed'⟩
      change Mirrors db.stores (.select product.plan e) _
      rw [Cursor.plan_of_product isProduct]
      exact hl.innerJoin hr (binds bound)
    | left =>
      simp only [kind] at joined
      obtain ⟨base, e, _, bound, plan⟩ := Cursor.plan_of_joinOn joined
      refine ⟨_, rfl, ⟨tidy, heading, ?_⟩, noComputed'⟩
      change Mirrors db.stores c.plan _
      rw [plan]
      exact hl.leftJoin hr (binds bound)
    | right =>
      simp only [kind] at joined
      obtain ⟨base, e, _, bound, plan⟩ := Cursor.plan_of_joinOn joined
      refine ⟨_, rfl, ⟨tidy, heading, ?_⟩, noComputed'⟩
      change Mirrors db.stores c.plan _
      rw [plan]
      exact hl.rightJoin hr (binds bound)

/-- Checks a join and adds its table to the names in sight. -/
def checkJoin (db : Database) (scope : Scope) (clause : JoinClause) : Checked Scope := do
  let scope ← scope.addTable db clause.table clause.alias?
  scope.checkTree clause.on
  return scope

theorem Stage.joins {joins : List JoinClause}
    (plain : ∀ clause ∈ joins, PlainTable db clause.table clause.alias?)
    (stage : Stage db.stores scope rows r) (noComputed : scope.computed = [])
    (checked : joins.foldlM (checkJoin db) scope = .ok scope')
    (built : joins.foldlM (fun rows clause => return some (← addJoin db rows clause)) rows =
      .ok rows') :
    ∃ r', joins.foldlM (joinRelation db) r = .ok r' ∧ Stage db.stores scope' rows' r' ∧
      scope'.computed = [] := by
  induction joins generalizing scope rows r with
  | nil =>
    cases checked
    cases built
    exact ⟨r, rfl, stage, noComputed⟩
  | cons clause joins ih =>
    obtain ⟨between, isChecked, checked⟩ := Checked.bind_eq_ok.1 checked
    obtain ⟨added, isAdded, isChecked⟩ := Checked.bind_eq_ok.1 isChecked
    obtain ⟨⟨⟩, accepted, eq⟩ := Checked.bind_eq_ok.1 isChecked
    cases eq
    obtain ⟨next, isBuilt, built⟩ := Checked.bind_eq_ok.1 built
    obtain ⟨c, joined, eq⟩ := Checked.bind_eq_ok.1 isBuilt
    cases eq
    obtain ⟨r', relation, stage', noComputed'⟩ :=
      stage.join noComputed (plain clause List.mem_cons_self) isAdded accepted joined
    obtain ⟨r'', rest, stage'', noComputed''⟩ :=
      ih (fun clause mem => plain clause (List.mem_cons_of_mem _ mem)) stage' noComputed' checked
        built
    exact ⟨r'', Checked.bind_eq_ok.2 ⟨r', relation, rest⟩, stage'', noComputed''⟩

/-! ## Computed columns -/

/-- Checks the computed column of an item, if it has one, and adds its name to those in sight. -/
def checkItem (scope : Scope) : SelectItem → Checked Scope
  | .computed value name => do
    scope.checkTree value
    scope.addComputed name
  | _ => .ok scope

theorem Stage.compute {item : SelectItem}
    (plain : ∀ value name, item = .computed value name → FieldName.Plain name)
    (stage : Stage db.stores scope rows r) (checked : checkItem scope item = .ok scope')
    (built : addComputed rows item = .ok rows') :
    Stage db.stores scope' rows' (extendRelation r item) ∧
      scope'.entries = scope.entries ∧
      (∀ name ∈ scope.computed, name ∈ scope'.computed) ∧
      ∀ value name, item = .computed value name → name ∈ scope'.computed := by
  cases item with
  | all =>
    cases checked
    cases built
    exact ⟨stage, rfl, fun _ mem => mem, nofun⟩
  | field name =>
    cases checked
    cases built
    exact ⟨stage, rfl, fun _ mem => mem, nofun⟩
  | computed value name =>
    obtain ⟨⟨⟩, accepted, added⟩ := Checked.bind_eq_ok.1 checked
    obtain ⟨rfl, free⟩ := Scope.addComputed_eq_ok added
    refine ⟨⟨stage.tidy.addComputed (plain value name rfl) free, ?_, ?_⟩, rfl,
      fun _ mem => List.mem_append_left _ mem, ?_⟩
    · rw [Scope.heading_addComputed, ← stage.heading]
      rfl
    · cases rows with
      | none =>
        obtain ⟨e, bound, eq⟩ := Checked.bind_eq_ok.1 built
        cases eq
        have isUnit : r = .unit := stage.rows
        have binds := stage.tidy.binds accepted bound
        rw [← stage.heading, isUnit] at binds
        rw [isUnit]
        exact Mirrors.single binds name
      | some child =>
        obtain ⟨e, bound, eq⟩ := Checked.bind_eq_ok.1 built
        cases eq
        have mirrors : Mirrors db.stores child.plan r := stage.rows
        have binds := stage.tidy.binds accepted bound
        rw [← stage.heading] at binds
        exact mirrors.extend binds name
    · intro _ _ eq
      cases eq
      exact List.mem_append_right _ (List.mem_singleton_self _)

theorem Stage.computes {items : List SelectItem}
    (plain : ∀ value name, .computed value name ∈ items → FieldName.Plain name)
    (stage : Stage db.stores scope rows r) (checked : items.foldlM checkItem scope = .ok scope')
    (built : items.foldlM addComputed rows = .ok rows') :
    Stage db.stores scope' rows' (items.foldl extendRelation r) ∧
      scope'.entries = scope.entries ∧
      (∀ name ∈ scope.computed, name ∈ scope'.computed) ∧
      ∀ value name, .computed value name ∈ items → name ∈ scope'.computed := by
  induction items generalizing scope rows r with
  | nil =>
    cases checked
    cases built
    exact ⟨stage, rfl, fun _ mem => mem, nofun⟩
  | cons item items ih =>
    obtain ⟨between, isChecked, checked⟩ := Checked.bind_eq_ok.1 checked
    obtain ⟨next, isBuilt, built⟩ := Checked.bind_eq_ok.1 built
    obtain ⟨stage', entries, keeps, own⟩ :=
      stage.compute (fun value name eq => plain value name (eq ▸ List.mem_cons_self)) isChecked
        isBuilt
    obtain ⟨stage'', entries', keeps', own'⟩ :=
      ih (fun value name mem => plain value name (List.mem_cons_of_mem _ mem)) stage' checked built
    refine ⟨stage'', entries'.trans entries, fun name mem => keeps' name (keeps name mem), ?_⟩
    intro value name mem
    rcases List.mem_cons.1 mem with eq | mem
    · exact keeps' name (own value name eq.symm)
    · exact own' value name mem

/-! ## The whole opening -/

theorem checkNames_eq_ok {items : List SelectItem} {joins : List JoinClause} {filter : Option Tree}
    (h : checkNames db scope items joins filter = .ok scope') :
    ∃ joined, joins.foldlM (checkJoin db) scope = .ok joined ∧
      items.foldlM checkItem joined = .ok scope' ∧
      (∀ name, .field name ∈ items → scope'.check name = .ok ()) ∧
      ∀ tree ∈ filter, scope'.checkTree tree = .ok () := by
  obtain ⟨joined, isJoined, h⟩ := Checked.bind_eq_ok.1 h
  obtain ⟨last, isLast, h⟩ := Checked.bind_eq_ok.1 h
  obtain ⟨⟨⟩, fields, h⟩ := Checked.bind_eq_ok.1 h
  obtain ⟨⟨⟩, filtered, eq⟩ := Checked.bind_eq_ok.1 h
  cases eq
  refine ⟨joined, isJoined, isLast, fun name mem => Checked.forM_eq_ok fields _ mem, fun tree mem => ?_⟩
  cases mem
  exact filtered

theorem build_eq_ok {cursors : List Cursor} {items : List SelectItem} {joins : List JoinClause}
    {filter : Option Tree} {c : Cursor} (h : build db cursors items joins filter = .ok c) :
    ∃ first joined child, joinSources db cursors = .ok first ∧
      joins.foldlM (fun rows clause => return some (← addJoin db rows clause)) first = .ok joined ∧
      items.foldlM addComputed joined = .ok (some child) ∧
      (filter = none ∧ c = child ∨
        ∃ tree check e, filter = some tree ∧ check = child.fieldCheck ∧ tree.bind check = .ok e ∧
          c = child.select e) := by
  obtain ⟨first, isFirst, h⟩ := Checked.bind_eq_ok.1 h
  obtain ⟨joined, isJoined, h⟩ := Checked.bind_eq_ok.1 h
  obtain ⟨rows, isRows, h⟩ := Checked.bind_eq_ok.1 h
  cases rows with
  | none => exact nomatch h
  | some child =>
    refine ⟨first, joined, child, isFirst, isJoined, isRows, ?_⟩
    cases filter with
    | none => exact .inl ⟨rfl, (Except.ok.inj h).symm⟩
    | some tree =>
      obtain ⟨e, bound, eq⟩ := Checked.bind_eq_ok.1 h
      exact .inr ⟨tree, _, e, rfl, rfl, bound, (Except.ok.inj eq).symm⟩

/-- What is built before fields are hidden has the rows of the relation before columns are selected. -/
theorem stage_of_build {sources : List (FromItem Query)} {items : List SelectItem}
    {joins : List JoinClause} {filter : Option Tree} {cursors : List Cursor} {c : Cursor}
    (plain : Plain db ⟨items, sources, joins, filter⟩)
    (opened : openSources db sources .empty = .ok (scope, cursors))
    (checked : checkNames db scope items joins filter = .ok scope')
    (built : build db cursors items joins filter = .ok c) :
    ∃ r joined, sourcesRelation db sources = .ok r ∧
      joins.foldlM (joinRelation db) r = .ok joined ∧
      joined.heading = scope'.sourceColumns ∧
      Stage db.stores scope' (some c) (restrictRelation (items.foldl extendRelation joined) filter) ∧
      (∀ name, .field name ∈ items → scope'.check name = .ok ()) ∧
      ∀ value name, .computed value name ∈ items → name ∈ scope'.computed := by
  obtain ⟨between, isJoined, isChecked, fields, filtered⟩ := checkNames_eq_ok checked
  obtain ⟨first, next, child, isFirst, isNext, isChild, last⟩ := build_eq_ok built
  obtain ⟨r, isRelation, stage, noComputed⟩ := stage_of_sources plain.sources opened isFirst
  obtain ⟨joined, isJoin, stage, noComputed⟩ :=
    stage.joins plain.joins noComputed isJoined isNext
  have width : joined.heading = between.sourceColumns := by
    rw [stage.heading, Scope.heading, noComputed, List.map_nil, List.append_nil]
  obtain ⟨stage, entries, -, own⟩ := stage.computes plain.computed isChecked isChild
  refine ⟨r, joined, isRelation, isJoin, ?_, ?_, fields, own⟩
  · rw [width, Scope.sourceColumns, Scope.sourceColumns, entries]
  · rcases last with ⟨rfl, rfl⟩ | ⟨tree, check, e, rfl, -, bound, rfl⟩
    · exact stage
    · have binds := stage.tidy.binds (filtered tree rfl) bound
      rw [← stage.heading] at binds
      have mirrors : Mirrors db.stores child.plan (items.foldl extendRelation joined) := stage.rows
      exact ⟨stage.tidy, stage.heading, mirrors.restrict binds⟩

end Query

end RelEngine
