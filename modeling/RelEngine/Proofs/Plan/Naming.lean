import RelEngine.Plan.Eval
import RelEngine.Proofs.Scan.Finds

/-!
Plans whose expressions name only fields of their rows find their fields.
-/
namespace RelEngine.Plan

variable {child left right outer inner : Plan} {e : Expr}

theorem finds_table (view : TableView) : (table view).scan.Finds := Scan.finds_table view

theorem finds_product (hl : left.scan.Finds) (hr : right.scan.Finds) :
    (product left right).scan.Finds :=
  Scan.Finds.product hl hr

theorem finds_select (h : child.scan.Finds) (onRow : e.OnRow fun name => child.has name = true) :
    (select child e).scan.Finds :=
  h.select fun stores s _ =>
    Scan.other_of_condition onRow fun name x known => h.found stores s name x known

/-- The predicate is asked on pairs of rows, without regard to missing matches. -/
theorem finds_join {flipped : Bool} {unasked : Expr} (ho : outer.scan.Finds) (hi : inner.scan.Finds)
    (onRow : e.OnRow fun name => (join outer inner unasked flipped).has name = true) :
    (join outer inner e flipped).scan.Finds :=
  Scan.Join.finds ho hi fun _ _ _ =>
    Scan.other_of_condition onRow fun _ _ known => Scan.Join.readPair_found ho.resolves hi.resolves known

theorem finds_extend (name : String) (h : child.scan.Finds)
    (onRow : e.OnRow fun name => child.has name = true) : (extend child e name).scan.Finds :=
  h.extend fun stores s _ => Scan.other_of_eval onRow fun name x known => h.found stores s name x known

theorem finds_single {name : String} (onRow : e.OnRow fun _ => False) : (single e name).scan.Finds :=
  Scan.finds_single fun _ _ => Scan.other_of_eval onRow fun _ _ => False.elim

theorem finds_project (h : child.scan.Finds) (fields : List String) :
    (project child fields).scan.Finds :=
  Scan.Finds.project h fields

end RelEngine.Plan
