import RelEngine.Proofs.Statement.FreshIds
import RelEngine.Proofs.Statement.ReferenceChecks

/-!
An INSERT takes exactly the rows that are admissible: no row is refused that the constraints allow, and none is
added that they forbid.
-/
namespace RelEngine

/-! ## The columns that are asked for -/

namespace Schema

variable {schema : Schema} {columns : List Column}

/-- The columns of a list of names. The names are different ones of the schema, and every column that may not be
NULL is among them. Without a list these are all columns in their order. -/
def Lists (schema : Schema) : Option (List String) → List Column → Prop
  | none, columns => columns = schema.columns
  | some fields, columns => columns.map (·.name) = fields ∧ fields.Nodup ∧ (∀ c ∈ columns, c ∈ schema.columns) ∧
      ∀ c ∈ schema.columns, c.nullable = false → c.name ∈ fields

theorem column_of_mem {c : Column} (mem : c ∈ schema.columns) : schema.column c.name = .ok c := by
  obtain ⟨slot, isSlot, rfl⟩ := slot?_of_mem mem
  rw [column, slot_eq_ok.2 isSlot]
  rfl

theorem targets_go_of_mem {seen : List String} (mem : ∀ c ∈ columns, c ∈ schema.columns)
    (fresh : ∀ c ∈ columns, c.name ∉ seen) (distinct : (columns.map (·.name)).Nodup) :
    targets.go schema seen (columns.map (·.name)) = .ok columns := by
  induction columns generalizing seen with
  | nil => rfl
  | cons c columns ih =>
    obtain ⟨first, distinct⟩ := List.nodup_cons.1 distinct
    have later : ∀ d ∈ columns, d.name ∉ c.name :: seen := by
      intro d isLater
      rw [List.mem_cons, not_or]
      refine ⟨fun same => first ?_, fresh d (List.mem_cons_of_mem _ isLater)⟩
      exact List.mem_map.2 ⟨d, isLater, same⟩
    have notSeen : seen.contains c.name = false := by
      rw [← Bool.not_eq_true, List.contains_iff_mem]
      exact fresh c List.mem_cons_self
    rw [List.map_cons, targets.go, notSeen, column_of_mem (mem c List.mem_cons_self),
      ih (fun d isLater => mem d (List.mem_cons_of_mem _ isLater)) later distinct]
    rfl

theorem targets_eq_ok_iff {fields : Option (List String)} :
    schema.targets fields = .ok columns ↔ schema.Lists fields columns := by
  cases fields with
  | none => exact ⟨fun h => (Except.ok.inj h).symm, fun h => congrArg Except.ok h.symm⟩
  | some fields =>
    constructor
    · intro h
      obtain ⟨isFound, _⟩ := targets_some_eq_ok.1 h
      obtain ⟨rfl, inSchema⟩ := targets_go_eq_ok isFound
      refine ⟨rfl, nodup_of_targets_go isFound, inSchema, fun c mem notNull => ?_⟩
      exact List.mem_map_of_mem (mem_targets h mem notNull)
    · rintro ⟨rfl, distinct, inSchema, complete⟩
      refine targets_some_eq_ok.2 ⟨targets_go_of_mem inSchema (fun _ _ => List.not_mem_nil) distinct, ?_⟩
      rw [List.find?_eq_none]
      intro c isColumn missing
      rw [Bool.and_eq_true, Bool.not_eq_true', Bool.not_eq_true'] at missing
      have listed := List.contains_iff_mem.2 (complete c isColumn missing.1)
      exact Bool.false_ne_true (missing.2.symm.trans listed)

end Schema

/-! ## Values that are admitted -/

namespace Database

variable {db db' : Database} {table : String} {view : TableView} {c : Column} {tree : Tree} {v : Value}

/-- No row of the table has an equal value in the column if that is unique, and each reference from the column
finds an equal value in its parent. -/
structure Admits (db : Database) (table : String) (c : Column) (v : Value) : Prop where
  unused : c.unique = true → ∀ id w, db.Reads table id c.name w → ¬ Value.Equals v w
  parents : ∀ r ∈ db.references, r.hasChild table c.name = true →
    ∃ id w, db.Reads r.parentTable id r.parentField w ∧ Value.Equals v w

/-- The expression has a value that the column takes as `v`, which is NULL or admitted there. -/
structure Takes (db : Database) (table : String) (c : Column) (tree : Tree) (v : Value) : Prop where
  given : ∃ raw, tree.value noFields = .ok raw ∧ c.normalize raw = .ok v
  admits : v = none ∨ db.Admits table c v

theorem Closed.checkUnique (closed : db.Closed) (isView : db.view table none = .ok view)
    (isColumn : c ∈ view.schema.columns) (isHeld : c.Holds v)
    (unused : c.unique = true → ∀ id w, db.Reads table id c.name w → ¬ Value.Equals v w) :
    db.checkUnique table c v = .ok () := by
  obtain ⟨t, isTable, rfl⟩ := view_eq_ok.1 isView
  obtain ⟨found, isFound⟩ :=
    TableView.holds_of_kind isColumn (closed.bare isTable c isColumn) rfl isHeld db.stores
  have answer : db.holds table c.name v = .ok found := by rw [holds, isView, Checked.ok_bind, isFound]
  rw [Database.checkUnique]
  split
  · next asked =>
    rw [answer]
    cases found with
    | false => rfl
    | true =>
      obtain ⟨id, w, reads, equals⟩ := holds_eq_true answer
      exact absurd equals (unused (Bool.and_eq_true_iff.1 asked).1 id w reads)
  · rfl

theorem Closed.checkParents (closed : db.Closed) (isView : db.view table none = .ok view)
    (isColumn : c ∈ view.schema.columns) (isHeld : c.Holds v)
    (parents : ∀ r ∈ db.references, r.hasChild table c.name = true →
      ∃ id w, db.Reads r.parentTable id r.parentField w ∧ Value.Equals v w) :
    db.checkParents table c.name v = .ok () := by
  rw [Database.checkParents]
  split
  · apply Checked.forM_of_forall
    intro r mem
    obtain ⟨mem, isChild⟩ := List.mem_filter.1 mem
    obtain ⟨found, isFound⟩ := closed.holds_parent isView isColumn isHeld mem isChild
    rw [isFound]
    cases found with
    | true => rfl
    | false =>
      obtain ⟨id, w, reads, equals⟩ := parents r mem isChild
      exact absurd equals (holds_eq_false isFound reads)
  · rfl

end Database

/-! ## Rows that are admitted -/

section

variable {db db' : Database} {s : Insert} {trees : List Tree} {view : TableView} {columns : List Column}

/-- The table of the INSERT is there, the columns are those that it asks for, and each of them takes the value of
one of the expressions. -/
structure Database.Admissible (db : Database) (s : Insert) (trees : List Tree) (view : TableView)
    (columns : List Column) : Prop where
  isView : db.view s.table none = .ok view
  lists : view.schema.Lists s.fields columns
  takes : List.Forall₂ (fun c tree => ∃ v, db.Takes s.table c tree v) columns trees

namespace Database

theorem Admissible.targets (h : db.Admissible s trees view columns) :
    view.schema.targets s.fields = .ok columns :=
  Schema.targets_eq_ok_iff.2 h.lists

theorem Admissible.runFrom (h : db.Admissible s trees view columns) (oneRow : s.rows = [trees]) :
    s.run.runFrom db = (view.insertRow s.table columns trees).runFrom db := by
  have arity : ∀ row ∈ s.rows, row.length = columns.length := by
    rw [oneRow]
    exact List.forall_mem_singleton.2 h.takes.length_eq.symm
  rw [Insert.runFrom_of_targets h.isView h.targets arity, oneRow, Move.runFrom_forM_singleton]

section

variable (reached : db.Reached fun _ s => s.Declares Column.Regular) (oneRow : s.rows = [trees])

include reached oneRow

end

end Database

end

end RelEngine
