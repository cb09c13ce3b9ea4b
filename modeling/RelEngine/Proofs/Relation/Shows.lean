import Mathlib.Data.List.Forall2
import RelEngine.Plan.Rows
import RelEngine.Proofs.Name
import RelEngine.Proofs.Tree.Binding

/-!
Records and rows of cells that have the same in them.

A record is asked for a name; a row is looked up under a heading. When a name stands for several columns
the two may choose differently, so they are compared on the names that stand for just one.
-/
namespace RelEngine

namespace Relation

/-- The name stands for just one column. -/
def Unique (heading : List FieldName) (name : String) : Prop :=
  heading.countP (·.isNamed name) = 1

variable {left right : List FieldName} {l r : List (Checked Value)} {name : String}

theorem any_eq_false_iff_countP {heading : List FieldName} :
    heading.any (·.isNamed name) = false ↔ heading.countP (·.isNamed name) = 0 := by
  rw [List.any_eq_false, List.countP_eq_zero]

theorem Unique.any {heading : List FieldName} (h : Unique heading name) :
    heading.any (·.isNamed name) = true := by
  rw [← Bool.not_eq_false, any_eq_false_iff_countP, h]
  exact Nat.one_ne_zero

/-- A name that is unique in two headings together is unique in one of them and not in the other. -/
theorem Unique.of_append (h : Unique (left ++ right) name) :
    (Unique left name ∧ right.any (·.isNamed name) = false) ∨
      (left.any (·.isNamed name) = false ∧ Unique right name) := by
  rw [Unique, List.countP_append] at h
  rw [any_eq_false_iff_countP, any_eq_false_iff_countP, Unique, Unique]
  omega

theorem any_zip (h : l.length = left.length) :
    (left.zip l).any (·.1.isNamed name) = left.any (·.isNamed name) := by
  rw [← List.map_fst_zip (Nat.le_of_eq h.symm), List.any_map,
    List.map_fst_zip (Nat.le_of_eq h.symm)]
  rfl

theorem lookup_append_left (h : l.length = left.length)
    (here : left.any (·.isNamed name) = true) :
    lookup (left ++ right) (l ++ r) name = lookup left l name := by
  rw [← any_zip h, List.any_eq_true, ← List.find?_isSome] at here
  obtain ⟨cell, found⟩ := Option.isSome_iff_exists.1 here
  simp only [lookup, List.zip_append h.symm, List.find?_append, found, Option.some_or]

theorem lookup_append_right (h : l.length = left.length)
    (elsewhere : left.any (·.isNamed name) = false) :
    lookup (left ++ right) (l ++ r) name = lookup right r name := by
  rw [← any_zip h, List.any_eq_false, ← List.find?_eq_none] at elsewhere
  simp only [lookup, List.zip_append h.symm, List.find?_append, elsewhere, Option.none_or]

/-- If a name stands for one column only, its cell is the one of any column that it stands for. -/
theorem lookup_of_unique {heading : List FieldName} {row : List (Checked Value)}
    (unique : Unique heading name) {column : FieldName} {cell : Checked Value}
    (mem : (column, cell) ∈ heading.zip row) (named : column.isNamed name = true) :
    lookup heading row name = cell := by
  induction heading generalizing row with
  | nil => exact nomatch mem
  | cons first heading ih =>
    cases row with
    | nil => exact nomatch mem
    | cons x row =>
      rw [Unique, List.countP_cons] at unique
      rw [List.zip_cons_cons, List.mem_cons] at mem
      rcases mem with eq | mem
      · cases eq
        simp only [lookup, List.zip_cons_cons, List.find?_cons, named]
      · have here : 0 < heading.countP (·.isNamed name) :=
          List.countP_pos_iff.2 ⟨column, (List.of_mem_zip mem).1, named⟩
        have other : first.isNamed name = false := by
          rw [← Bool.not_eq_true]
          intro also
          rw [if_pos also] at unique
          omega
        rw [other] at unique
        have found := ih unique mem
        simpa only [lookup, List.zip_cons_cons, List.find?_cons, other] using found

theorem lookup_mem {heading : List FieldName} {row : List (Checked Value)}
    (width : row.length = heading.length) (h : heading.any (·.isNamed name) = true) :
    lookup heading row name ∈ row := by
  rw [← any_zip width, List.any_eq_true, ← List.find?_isSome] at h
  obtain ⟨⟨column, cell⟩, found⟩ := Option.isSome_iff_exists.1 h
  simp only [lookup, found]
  exact (List.of_mem_zip (List.mem_of_find?_eq_some found)).2

end Relation

/-- A row of cells shows a record if both have the same under every name that stands for just one
column. -/
structure Shows (heading : List FieldName) (record : Record) (row : List (Checked Value)) : Prop where
  width : row.length = heading.length
  agree : ∀ name, Relation.Unique heading name →
    (record name).toOption = (Relation.lookup heading row name).toOption

/-- The expression is what a tree was bound to, and every name in the tree stands for one column. -/
structure Binds (heading : List FieldName) (tree : Tree) (e : Expr) : Prop where
  bound : ∃ check, tree.bind check = .ok e
  unique : ∀ name ∈ tree.names, Relation.Unique heading name

namespace Shows

variable {heading left right : List FieldName} {record lrec rrec : Record}
  {row l r : List (Checked Value)} {tree : Tree} {e : Expr} {stores : Stores}

theorem evaluate (h : Shows heading record row) (binds : Binds heading tree e) (stores : Stores) :
    (e.eval stores record).toOption = (Relation.evaluate heading tree row).toOption := by
  obtain ⟨check, bound⟩ := binds.bound
  exact Tree.toOption_eval_bind tree bound fun name mem => h.agree name (binds.unique name mem)

theorem fulfils (h : Shows heading record row) (binds : Binds heading tree e) :
    decide (e.accepts stores record = .ok true) = Relation.fulfils heading tree row := by
  rw [Relation.fulfils, ← h.evaluate binds stores, Expr.accepts]
  cases e.eval stores record with
  | error _ => rfl
  | ok v =>
    change decide (Except.ok v.isTrue = Except.ok true) = v.isTrue
    simp only [Except.ok.injEq, Bool.decide_eq_true]

theorem failed (h : Shows heading record row) (binds : Binds heading tree e) {err : Error}
    (bad : e.accepts stores record = .error err) :
    ∃ err, Relation.evaluate heading tree row = .error err := by
  have same := h.evaluate binds stores
  rw [Expr.accepts] at bad
  cases value : e.eval stores record with
  | ok v =>
    rw [value] at bad
    exact nomatch bad
  | error _ =>
    rw [value] at same
    cases cell : Relation.evaluate heading tree row with
    | error err => exact ⟨err, rfl⟩
    | ok v =>
      rw [cell] at same
      exact nomatch same

/-- Two rows side by side show a record that reads every name from the side that has it. -/
theorem append (hl : Shows left lrec l) (hr : Shows right rrec r)
    (fromLeft : ∀ name, left.any (·.isNamed name) = true → right.any (·.isNamed name) = false →
      record name = lrec name)
    (fromRight : ∀ name, left.any (·.isNamed name) = false → right.any (·.isNamed name) = true →
      record name = rrec name) :
    Shows (left ++ right) record (l ++ r) where
  width := by rw [List.length_append, List.length_append, hl.width, hr.width]
  agree name unique := by
    rcases unique.of_append with ⟨here, elsewhere⟩ | ⟨elsewhere, here⟩
    · rw [fromLeft name here.any elsewhere, Relation.lookup_append_left hl.width here.any]
      exact hl.agree name here
    · rw [fromRight name elsewhere here.any, Relation.lookup_append_right hl.width elsewhere]
      exact hr.agree name here

theorem nulls (heading : List FieldName) :
    Shows heading (fun _ => .ok none) (heading.map fun _ => .ok none) where
  width := List.length_map _
  agree name unique := by
    obtain ⟨column, mem, named⟩ := List.any_eq_true.1 unique.any
    have cell : (column, .ok none) ∈ heading.zip (heading.map fun _ => (.ok none : Checked Value)) := by
      rw [← List.map_prod_left_eq_zip]
      exact List.mem_map_of_mem mem
    rw [Relation.lookup_of_unique unique cell named]

end Shows

end RelEngine
