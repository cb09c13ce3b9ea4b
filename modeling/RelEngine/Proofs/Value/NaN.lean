import RelEngine.Proofs.Number.Widening
import RelEngine.Proofs.Value.Equality

/-!
NaN among the values. It is what a number has to be to differ from itself: every other value that is not NULL
equals itself, and nothing equals a NaN.
-/
namespace RelEngine

namespace Scalar

/-- The number is a NaN of either width. -/
def isNaN : Scalar → Bool
  | .float x => x.isNaN
  | .double x => x.isNaN
  | _ => false

variable {a : Scalar}

/-- No integer is a NaN as a number, and widening makes none. -/
theorem isNaN_of_double? {x : Binary64} (h : a.double? = some x) : x.isNaN = a.isNaN := by
  cases a with
  | bool b =>
    cases h
    exact Binary.isNaN_round _ _ _
  | int n =>
    cases h
    exact Binary.isNaN_round _ _ _
  | float x =>
    cases h
    exact Binary.isNaN_convert (by decide) x
  | double x =>
    cases h
    rfl
  | text s => cases h

theorem order?_self_iff : a.order? a = .ok (some .eq) ↔ a.isNaN = false := by
  rw [order?_eq]
  constructor
  · rintro (⟨s, rfl, _⟩ | ⟨x, y, isNumber, _, equal⟩)
    · rfl
    · exact isNaN_of_double? isNumber ▸ (Binary.order?_eq.1 equal).1
  · intro notNan
    cases isNumber : a.double? with
    | none =>
      cases a with
      | text s => exact .inl ⟨s, rfl, rfl⟩
      | bool | int | float | double => cases isNumber
    | some x =>
      have notNan' := (isNaN_of_double? isNumber).trans notNan
      exact .inr ⟨x, x, rfl, rfl, Binary.order?_eq.2 ⟨notNan', notNan', rfl⟩⟩

end Scalar

namespace Value

def isNaN (v : Value) : Bool := v.any Scalar.isNaN

variable {v w : Value}

theorem equals_self_iff : Equals v v ↔ v ≠ none ∧ v.isNaN = false := by
  cases v with
  | none => exact ⟨fun h => absurd rfl h.ne_none.1, fun h => absurd rfl h.1⟩
  | some a =>
    rw [equals_iff]
    constructor
    · rintro ⟨_, _, ⟨⟩, ⟨⟩, order⟩
      exact ⟨nofun, Scalar.order?_self_iff.1 order⟩
    · rintro ⟨_, notNan⟩
      exact ⟨a, a, rfl, rfl, Scalar.order?_self_iff.2 notNan⟩

theorem Equals.isNaN_left (h : Equals v w) : v.isNaN = false := (equals_self_iff.1 (h.trans h.symm)).2

/-- NULL is no NaN. -/
theorem isNaN_eq_false (h : v ≠ none → v.isNaN = false) : v.isNaN = false := by
  by_cases isNull : v = none
  · rw [isNull]
    rfl
  · exact h isNull

theorem isNaN_of_identical (h : identical v w = true) : v.isNaN = false :=
  isNaN_eq_false fun notNull => (equals_of_identical h notNull).isNaN_left

/-- Identity is reflexive but for NaNs. -/
theorem identical_self_iff : identical v v = true ↔ v.isNaN = false := by
  refine ⟨isNaN_of_identical, fun notNan => ?_⟩
  by_cases isNull : v = none
  · rw [isNull]
    rfl
  · exact (equals_self_iff.2 ⟨isNull, notNan⟩).identical

/-- The values are the same, or both are NaNs of the same type. Payloads and signs of NaNs do not count. -/
def SameUpToNaN (v w : Value) : Prop := v = w ∨ v.isNaN = true ∧ w.isNaN = true ∧ v.type? = w.type?

theorem SameUpToNaN.refl (v : Value) : SameUpToNaN v v := .inl rfl

theorem SameUpToNaN.eq_of_not_nan (h : SameUpToNaN v w) (notNan : w.isNaN = false) : v = w := by
  rcases h with same | ⟨_, nan, _⟩
  · exact same
  · cases nan.symm.trans notNan

end Value

end RelEngine
