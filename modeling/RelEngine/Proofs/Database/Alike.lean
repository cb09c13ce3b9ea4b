import Mathlib.Data.List.Forall2
import RelEngine.Proofs.Database.Contents
import RelEngine.Proofs.Statement.Steps
import RelEngine.Proofs.Tree.Storeless

/-!
Two databases side by side that differ only in what no check looks at: under which ids rows stand, where
tables keep them, and what a reference asks for on a change that nobody asks it about. Every check comes to
the same on both.
-/
namespace RelEngine

/-! ## Rows -/

namespace RowStore

/-- The same packed rows in the same order, under ids that go together. All ids to be given out go together
as well, so that rows can be added on both sides. -/
structure Paired (pairs : RowId → RowId → Prop) (s s' : RowStore) : Prop where
  entries : List.Forall₂ (fun e e' => pairs e.1 e'.1 ∧ e'.2 = e.2) s.rows.entries s'.rows.entries
  later : ∀ k, pairs (s.nextId + k) (s'.nextId + k)

variable {pairs : RowId → RowId → Prop} {s s' : RowStore} {id id' : RowId}

theorem Paired.contents (h : Paired pairs s s') : s'.contents = s.contents := by
  have same : List.Forall₂ (fun row row' => row' = row) s.contents s'.contents := by
    rw [RowStore.contents, RowStore.contents, List.forall₂_map_left_iff, List.forall₂_map_right_iff]
    exact h.entries.imp fun _ _ both => both.2
  rw [← List.forall₂_eq_eq_eq]
  exact same.flip

theorem Paired.ids (h : Paired pairs s s') : List.Forall₂ pairs s.ids s'.ids := by
  rw [RowStore.ids, RowStore.ids, SortedMap.keys, SortedMap.keys, List.forall₂_map_left_iff,
    List.forall₂_map_right_iff]
  exact h.entries.imp fun _ _ both => both.1

variable (one : Relator.BiUnique pairs) (both : pairs id id')

include one both

theorem compare_eq_iff_of_pairs {e e' : RowId} (others : pairs e e') :
    compare id e = .eq ↔ compare id' e' = .eq := by
  rw [Nat.compare_eq_eq, Nat.compare_eq_eq]
  exact Relator.rel_eq one both others

theorem Paired.find?_eq (h : Paired pairs s s') : s'.find? id' = s.find? id := by
  have entries := h.entries
  unfold RowStore.find? SortedMap.find?
  generalize s.rows.entries = l at entries
  generalize s'.rows.entries = l' at entries
  induction entries with
  | nil => rfl
  | @cons e e' l l' head _ ih =>
    -- The search stops at the same place, as ids go together with one id only.
    have same := compare_eq_iff_of_pairs one both head.1
    rw [List.findSome?_cons, List.findSome?_cons, ih, head.2]
    simp only [same]

theorem Paired.erase (h : Paired pairs s s') : Paired pairs (s.erase id) (s'.erase id') where
  entries := by
    apply List.rel_filter _ h.entries
    intro e e' head
    have same := compare_eq_iff_of_pairs one both head.1
    simp only [decide_eq_true_eq, ne_eq, same]
  later := h.later

theorem Paired.modify (h : Paired pairs s s') (row : Bytes) :
    Paired pairs (s.modify id fun _ => row) (s'.modify id' fun _ => row) where
  entries := by
    apply List.rel_map _ h.entries
    intro e e' head
    have same := compare_eq_iff_of_pairs one both head.1
    refine ⟨head.1, ?_⟩
    simp only [same, head.2]
  later := h.later

omit one both

theorem Paired.allocate (h : Paired pairs s s') (row : Bytes) :
    Paired pairs (s.allocate row).1 (s'.allocate row).1 where
  entries := by
    rw [entries_allocate, entries_allocate]
    exact List.rel_append h.entries (.cons ⟨h.later 0, rfl⟩ .nil)
  later k := by
    rw [nextId_allocate, nextId_allocate, Nat.add_assoc, Nat.add_assoc]
    exact h.later (1 + k)

end RowStore

/-! ## Views -/

namespace TableView

/-- Views of one table in two databases. -/
structure Twin (pairs : RowId → RowId → Prop) (stores stores' : Stores) (view view' : TableView) :
    Prop where
  qualifier : view'.qualifier = view.qualifier
  schema : view'.schema = view.schema
  rows : RowStore.Paired pairs (view.rows stores) (view'.rows stores')

variable {pairs pairs' : RowId → RowId → Prop} {stores stores' : Stores} {view view' : TableView}
  {id id' : RowId}

namespace Twin

theorem local?_eq (h : Twin pairs stores stores' view view') : view'.local? = view.local? := by
  funext name
  simp only [TableView.local?, h.qualifier, h.schema]

theorem has_eq (h : Twin pairs stores stores' view view') : view'.has = view.has := by
  funext name
  rw [TableView.has, TableView.has, h.local?_eq]

theorem resolve_eq (h : Twin pairs stores stores' view view') : view'.resolve = view.resolve := by
  funext name
  rw [TableView.resolve, TableView.resolve, h.local?_eq]

theorem fieldCheck_eq (h : Twin pairs stores stores' view view') :
    view'.fieldCheck = view.fieldCheck := by
  rw [TableView.fieldCheck, TableView.fieldCheck, h.has_eq]

theorem readRow_eq (h : Twin pairs stores stores' view view') : view'.readRow = view.readRow := by
  funext row name
  rw [TableView.readRow, TableView.readRow, h.resolve_eq, h.schema]

theorem changed_eq (h : Twin pairs stores stores' view view') : view'.changed = view.changed := by
  funext row? name value
  rw [TableView.changed, TableView.changed, h.resolve_eq, h.schema]

theorem holds_eq (h : Twin pairs stores stores' view view') (field : String) (value : Value) :
    view'.holds stores' field value = view.holds stores field value := by
  rw [holds_eq_holdsAmong, holds_eq_holdsAmong, h.rows.contents, holdsAmong, holdsAmong, h.readRow_eq]

theorem connects_eq {parent parent' child child' : TableView}
    (hp : Twin pairs stores stores' parent parent') (hc : Twin pairs' stores stores' child child')
    (r : Reference) : r.connects parent' child' = r.connects parent child := by
  funext p c
  rw [Reference.connects, Reference.connects, hp.has_eq, hp.readRow_eq, hc.readRow_eq]

variable (one : Relator.BiUnique pairs) (both : pairs id id')

include one both

theorem read_eq (h : Twin pairs stores stores' view view') :
    view'.read stores' (some id') = view.read stores (some id) := by
  funext name
  simp only [TableView.read, Option.bind_some, h.rows.find?_eq one both, h.resolve_eq, h.schema]

/-- The same rows are accepted by a condition that sees nothing but the row. -/
theorem accepts_eq (h : Twin pairs stores stores' view view') {filter : Option Expr}
    (storeless : ∀ e ∈ filter, e.Storeless) :
    view'.accepts stores' filter id' = view.accepts stores filter id := by
  cases filter with
  | none => rfl
  | some e =>
    rw [TableView.accepts, TableView.accepts, h.read_eq one both, storeless e rfl stores' stores]

end Twin

end TableView

/-! ## Databases -/

/-- References between the same fields, of which the second blocks the changes in question if the first
does. -/
structure Reference.Matches (consulted : RowChange → Prop) (r r' : Reference) : Prop where
  childTable : r'.childTable = r.childTable
  childField : r'.childField = r.childField
  parentTable : r'.parentTable = r.parentTable
  parentField : r'.parentField = r.parentField
  blocks : ∀ change, consulted change → r'.blocks change = r.blocks change

theorem Reference.Matches.refl (consulted : RowChange → Prop) (r : Reference) :
    r.Matches consulted r :=
  ⟨rfl, rfl, rfl, rfl, fun _ _ => rfl⟩

namespace Database

/-- The same tables, with rows side by side, and the same references, as far as they are consulted. -/
structure Alike (consulted : Reference → RowChange → Prop) (pairs : String → RowId → RowId → Prop)
    (db db' : Database) : Prop where
  placed : db.Placed
  placed' : db'.Placed
  one : ∀ name, Relator.BiUnique (pairs name)
  absent : ∀ {name}, db.tables.find? name = none → db'.tables.find? name = none
  tables : ∀ {name t}, db.tables.find? name = some t → ∃ t', db'.tables.find? name = some t' ∧
    t'.schema = t.schema ∧
      RowStore.Paired (pairs name) (db.stores.rowsAt t.store) (db'.stores.rowsAt t'.store)
  references : List.Forall₂ (fun r r' => r.Matches (consulted r) r') db.references db'.references

namespace Alike

variable {consulted : Reference → RowChange → Prop} {pairs : String → RowId → RowId → Prop}
  {db db' : Database} {table field : String} {value : Value} {r r' : Reference}

theorem has_eq (h : Alike consulted pairs db db') (name : String) : db'.has name = db.has name := by
  rw [Database.has, Database.has, SortedMap.contains, SortedMap.contains]
  cases found : db.tables.find? name with
  | none => rw [h.absent found]
  | some t =>
    obtain ⟨t', found', _⟩ := h.tables found
    rw [found']
    rfl

theorem schema_eq (h : Alike consulted pairs db db') (name : String) :
    db'.schema name = db.schema name := by
  rw [Database.schema, Database.schema, Database.table, Database.table]
  cases found : db.tables.find? name with
  | none => rw [h.absent found]
  | some t =>
    obtain ⟨t', found', sameSchema, _⟩ := h.tables found
    simp only [found', Checked.ok_bind, sameSchema]

theorem related_view (h : Alike consulted pairs db db') (alias? : Option String) :
    Checked.Related (TableView.Twin (pairs table) db.stores db'.stores) (db.view table alias?)
      (db'.view table alias?) := by
  rw [Database.view, Database.view, Database.table, Database.table]
  cases found : db.tables.find? table with
  | none =>
    rw [h.absent found]
    exact .error _
  | some t =>
    obtain ⟨t', found', sameSchema, paired⟩ := h.tables found
    rw [found']
    exact .ok ⟨rfl, sameSchema, paired⟩

theorem holds_eq (h : Alike consulted pairs db db') (table field : String) (value : Value) :
    db'.holds table field value = db.holds table field value :=
  (h.related_view none).bind_eq fun _ _ twin => twin.holds_eq field value

theorem checkUnique_eq (h : Alike consulted pairs db db') (c : Column) :
    db'.checkUnique table c value = db.checkUnique table c value := by
  rw [checkUnique, checkUnique, h.holds_eq]

/-- References that a test on names picks out. -/
theorem references_filter (h : Alike consulted pairs db db') {p : Reference → Bool}
    (same : ∀ {r r'}, r.Matches (consulted r) r' → p r' = p r) :
    List.Forall₂ (fun r r' => r.Matches (consulted r) r') (db.references.filter p)
      (db'.references.filter p) := by
  apply List.rel_filter _ h.references
  intro r r' isMatch
  simp only [same isMatch]

theorem checkParents_eq (h : Alike consulted pairs db db') :
    db'.checkParents table field value = db.checkParents table field value := by
  have each : List.Forall₂ (fun r r' => (do
        if !(← db'.holds r'.parentTable r'.parentField value) then
          throw (.foreignKeyViolation table field) : Checked Unit) = do
        if !(← db.holds r.parentTable r.parentField value) then
          throw (.foreignKeyViolation table field))
      (db.references.filter (·.hasChild table field)) (db'.references.filter (·.hasChild table field)) := by
    refine (h.references_filter fun isMatch => ?_).imp fun r r' isMatch => ?_
    · rw [Reference.hasChild, Reference.hasChild, isMatch.childTable, isMatch.childField]
    · rw [isMatch.parentTable, isMatch.parentField, h.holds_eq]
  rw [checkParents, checkParents, Checked.forM_eq_of_forall₂ each]

theorem checkChildren_eq (h : Alike consulted pairs db db') (isMatch : r.Matches (consulted r) r')
    {change : RowChange} (asked : consulted r change) :
    db'.checkChildren r' value change = db.checkChildren r value change := by
  rw [checkChildren, checkChildren, isMatch.blocks change asked, isMatch.childTable, isMatch.childField,
    h.holds_eq]

theorem hasDependentRow_eq (h : Alike consulted pairs db db') (isMatch : r.Matches (consulted r) r') :
    db'.hasDependentRow r' = db.hasDependentRow r := by
  rw [Database.hasDependentRow_eq, Database.hasDependentRow_eq, isMatch.parentTable, isMatch.childTable]
  refine (h.related_view _).bind_eq fun parent parent' hp => ?_
  refine (h.related_view _).bind_eq fun child child' hc => ?_
  have connects : r'.connects parent' child' = r.connects parent child := by
    rw [← hp.connects_eq hc r]
    funext p c
    rw [Reference.connects, Reference.connects, isMatch.childField, isMatch.parentField]
  rw [hp.rows.contents, hc.rows.contents, connects]

theorem resolve_eq (h : Alike consulted pairs db db') (fk : ForeignKey) (table : String)
    (schema : Schema) :
    fk.resolve db' table schema = fk.resolve db table schema := by
  rw [ForeignKey.resolve, ForeignKey.resolve, h.schema_eq]

theorem accepted_eq (h : Alike consulted pairs db db') (c : Column) (tree : Tree) :
    db'.accepted table c tree = db.accepted table c tree := by
  rw [accepted, accepted]
  cases bound : tree.bind .forbidden with
  | error e => rfl
  | ok e =>
    have storeless := Tree.storeless_bind tree bound
    simp only [Checked.ok_bind, storeless db'.stores db.stores, h.checkUnique_eq, h.checkParents_eq]

theorem listRows_eq (h : Alike consulted pairs db db') (name : String) :
    db'.listRows name = db.listRows name := by
  rw [listRows, listRows]
  refine (h.related_view _).bind_eq fun view view' twin => congrArg pure ?_
  rw [twin.schema, ← List.forall₂_eq_eq_eq, List.forall₂_map_left_iff, List.forall₂_map_right_iff]
  refine twin.rows.ids.flip.imp fun id' id both => ?_
  rw [twin.read_eq (h.one name) both]

/-! ## Changes on both sides -/

theorem updateRows (h : Alike consulted pairs db db') {view view' : TableView} {f f' : RowStore → RowStore}
    (isView : db.view table none = .ok view) (isView' : db'.view table none = .ok view')
    (rows : RowStore.Paired (pairs table) (f (view.rows db.stores)) (f' (view'.rows db'.stores))) :
    Alike consulted pairs (db.updateRows view f) (db'.updateRows view' f') where
  placed := h.placed.updateRows view f
  placed' := h.placed'.updateRows view' f'
  one := h.one
  references := h.references
  absent := h.absent
  tables {name u} found := by
    obtain ⟨t, isTable, rfl⟩ := view_eq_ok.1 isView
    obtain ⟨t', isTable', rfl⟩ := view_eq_ok.1 isView'
    obtain ⟨u', found', sameSchema, paired⟩ := h.tables found
    refine ⟨u', found', sameSchema, ?_⟩
    by_cases same : name = table
    · subst same
      cases isTable.symm.trans found
      cases isTable'.symm.trans found'
      change RowStore.Paired _ (Stores.rowsAt (Stores.update _ _ _) _)
        (Stores.rowsAt (Stores.update _ _ _) _)
      rw [Stores.rowsAt_update_self f (h.placed.inside isTable),
        Stores.rowsAt_update_self f' (h.placed'.inside isTable')]
      exact rows
    · rw [rowsAt_updateRows_of_ne fun store => same (h.placed.apart found isTable store),
        rowsAt_updateRows_of_ne fun store => same (h.placed'.apart found' isTable' store)]
      exact paired

end Alike

end Database

end RelEngine
