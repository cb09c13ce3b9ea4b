import RelEngine.Proofs.Checked
import RelEngine.Value.Compare
import RelEngine.Value.Logic

/-!
The order of values, seen from either side.
-/
namespace RelEngine

theorem Binary.order?_swap {f : Format} (x y : Binary f) :
    y.order? x = (x.order? y).map Ordering.swap := by
  unfold Binary.order?
  rw [Bool.or_comm]
  split
  · rfl
  · rw [Std.OrientedOrd.eq_swap (a := y.rank)]
    rfl

theorem Scalar.order?_swap (a b : Scalar) :
    (b.order? a).toOption = (a.order? b).toOption.map (Option.map Ordering.swap) := by
  by_cases texts : (∃ s, a = .text s) ∧ ∃ t, b = .text t
  · obtain ⟨⟨s, rfl⟩, t, rfl⟩ := texts
    simp only [Scalar.order?]
    rw [Std.OrientedOrd.eq_swap (a := t)]
    rfl
  · rw [Scalar.order?, Scalar.order?]
    · cases a.double? with
      | none => cases b.double? <;> rfl
      | some x =>
        cases b.double? with
        | none => rfl
        | some y =>
          simp only
          rw [Binary.order?_swap x y]
          rfl
    · exact fun s t ha hb => texts ⟨⟨s, ha⟩, t, hb⟩
    · exact fun s t hb ha => texts ⟨⟨t, ha⟩, s, hb⟩

theorem Comparison.holds_eq (c : Comparison) (o : Option Ordering) :
    c.holds o = (o == some (match c with | .eq => .eq | .lt => .lt)) := by
  cases c <;> rcases o with _ | _ | _ | _ <;> rfl

namespace Value

theorem connect_or_ofBool (a b : Bool) : connect .or (ofBool a) (ofBool b) = ofBool (a || b) := by
  cases a <;> cases b <;> rfl

end Value

end RelEngine
