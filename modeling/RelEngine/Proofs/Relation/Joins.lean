import Mathlib.Data.Multiset.Bind
import RelEngine.Relation

/-!
The three joins of two relations compared. An outer join has the pairs of the inner join, and besides them
each row of its outer side that is in none of those pairs.

The joins go over the two sides in different orders, so their rows are compared up to order.
-/
namespace RelEngine.Relation

/-- Two rows side by side fulfil the condition of a join. NULL and false both fail it. -/
def matched (left right : Relation) (on : Tree) (l r : List (Checked Value)) : Bool :=
  fulfils (left.heading ++ right.heading) on (l ++ r)

/-- Each left row that no right row matches, once, with NULL in the columns of the right side. -/
def leftAlone (left right : Relation) (on : Tree) : List (List (Checked Value)) :=
  (left.rows.filter fun l => !right.rows.any fun r => left.matched right on l r).map
    (· ++ right.nullRow)

/-- Each right row that no left row matches, once, with NULL in the columns of the left side. -/
def rightAlone (left right : Relation) (on : Tree) : List (List (Checked Value)) :=
  (right.rows.filter fun r => !left.rows.any fun l => left.matched right on l r).map
    (left.nullRow ++ ·)

section

variable {α β γ : Type}

theorem isEmpty_filter_map (f : α → β) (p : β → Bool) (l : List α) :
    ((l.map f).filter p).isEmpty = !l.any fun a => p (f a) := by
  rw [Bool.eq_iff_iff, List.isEmpty_iff, List.filter_eq_nil_iff, List.forall_mem_map,
    Bool.not_eq_true', List.any_eq_false]

/-- Pairs that pass a test are the same whichever list is in the outer loop. -/
theorem perm_filter_pairs (f : α → β → γ) (p : γ → Bool) (l : List α) (l' : List β) :
    (l.flatMap fun a => (l'.map (f a)).filter p).Perm
      (l'.flatMap fun b => (l.map fun a => f a b).filter p) := by
  have pairs : (l.flatMap fun a => l'.map (f a)).Perm (l'.flatMap fun b => l.map fun a => f a b) := by
    rw [← Multiset.coe_eq_coe, ← Multiset.coe_bind, ← Multiset.coe_bind]
    exact Multiset.bind_map_comm (l : Multiset α) (l' : Multiset β)
  have passed := pairs.filter p
  rwa [List.filter_flatMap, List.filter_flatMap] at passed

/-- What is found for each element, or one thing that stands for it when nothing is found. -/
theorem perm_flatMap_or_alone (found : α → List β) (alone : α → β) (l : List α) :
    (l.flatMap fun a => if (found a).isEmpty then [alone a] else found a).Perm
      (l.flatMap found ++ (l.filter fun a => (found a).isEmpty).map alone) := by
  induction l with
  | nil => exact .refl _
  | cons a l ih =>
    rw [List.flatMap_cons, List.flatMap_cons, List.filter_cons]
    cases none : (found a).isEmpty with
    | true =>
      rw [List.isEmpty_iff.1 none]
      exact (ih.cons (alone a)).trans List.perm_middle.symm
    | false =>
      rw [List.append_assoc]
      exact ih.append_left (found a)

end

variable (left right : Relation) (on : Tree)

theorem innerJoin_perm :
    (left.innerJoin right on).rows.Perm
      ((left.product right).rows.filter (fulfils (left.heading ++ right.heading) on)) := by
  have filtered : (left.product right).rows.filter (fulfils (left.heading ++ right.heading) on) =
      left.rows.flatMap fun l => (right.rows.map (l ++ ·)).filter
        (fulfils (left.heading ++ right.heading) on) := List.filter_flatMap ..
  rw [filtered]
  exact perm_filter_pairs (fun r l => l ++ r) _ _ _

theorem leftJoin_perm :
    (left.leftJoin right on).rows.Perm
      ((left.innerJoin right on).rows ++ left.leftAlone right on) := by
  have alone : left.leftAlone right on =
      (left.rows.filter fun l => ((right.rows.map (l ++ ·)).filter
        (fulfils (left.heading ++ right.heading) on)).isEmpty).map (· ++ right.nullRow) := by
    simp only [isEmpty_filter_map]
    rfl
  rw [alone]
  exact (perm_flatMap_or_alone _ _ _).trans ((perm_filter_pairs _ _ _ _).append_right _)

theorem rightJoin_perm :
    (left.rightJoin right on).rows.Perm
      ((left.innerJoin right on).rows ++ left.rightAlone right on) := by
  have alone : left.rightAlone right on =
      (right.rows.filter fun r => ((left.rows.map (· ++ r)).filter
        (fulfils (left.heading ++ right.heading) on)).isEmpty).map (left.nullRow ++ ·) := by
    simp only [isEmpty_filter_map]
    rfl
  rw [alone]
  exact perm_flatMap_or_alone _ _ _

end RelEngine.Relation
