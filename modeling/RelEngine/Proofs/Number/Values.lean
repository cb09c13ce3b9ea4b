import Mathlib.Algebra.Order.Field.Basic
import Mathlib.Algebra.Order.Ring.Rat
import Mathlib.Order.WithBot
import RelEngine.Proofs.Number.Widening

/-!
The values of numbers, as rational numbers and the two infinities. The order of bit patterns is the order of values,
a wider format has the same values, and small integers are values of the formats.
-/
namespace RelEngine

/-- A rational number or an infinity. -/
abbrev ExtendedRat := WithBot (WithTop ℚ)

theorem Format.infinity_pos {f : Format} (positive : 0 < f.exponent) : 0 < f.infinity :=
  Nat.mul_pos (Nat.sub_pos_of_lt (Nat.one_lt_two_pow positive.ne')) (Nat.two_pow_pos _)

namespace Binary

variable {f g : Format} {x y : Binary f}

/-- The value of a number, which is not to be asked of a NaN. -/
def value (x : Binary f) : ExtendedRat :=
  if x.isFinite then ((x.signedSteps / f.stepsPerOne : ℚ) : WithTop ℚ)
  else if x.isNegative then ⊥ else ⊤

theorem value_of_finite (h : x.isFinite = true) :
    x.value = ((x.signedSteps / f.stepsPerOne : ℚ) : WithTop ℚ) := if_pos h

/-! ## Order -/

theorem signedSteps_lt_iff : x.signedSteps < y.signedSteps ↔ x.rank < y.rank := by
  have less (m n : Nat) : f.stepsOf m < f.stepsOf n ↔ m < n := f.stepsOf_strictMono.lt_iff_lt
  have zero : f.stepsOf 0 = 0 := Format.stepsOf_subnormal (Nat.two_pow_pos _)
  have above := less x.magnitude y.magnitude
  have below := less y.magnitude x.magnitude
  have left := less 0 x.magnitude
  have right := less 0 y.magnitude
  rw [zero] at left right
  rw [signedSteps, signedSteps, rank, rank, steps_eq, steps_eq]
  split <;> split <;> omega

/-- A finite number is between the infinities, by its value and by its rank. -/
theorem between_of_finite (h : x.isFinite = true) :
    (⊥ < x.value ∧ x.value < ⊤) ∧ -(f.infinity : Int) < x.rank ∧ x.rank < f.infinity := by
  refine ⟨?_, ?_⟩
  · rw [value_of_finite h]
    exact ⟨WithBot.bot_lt_coe _, WithBot.coe_lt_coe.2 (WithTop.coe_lt_top _)⟩
  · rw [isFinite_iff] at h
    rw [rank]
    split <;> omega

theorem extreme_of_infinite (notNan : x.isNaN = false) (notFinite : ¬ x.isFinite = true) :
    x.value = ⊥ ∧ x.rank = -(f.infinity : Int) ∨ x.value = ⊤ ∧ x.rank = f.infinity := by
  rw [value, if_neg notFinite, rank, magnitude_of_not_finite notNan notFinite]
  cases x.isNegative with
  | true => exact .inl ⟨rfl, rfl⟩
  | false => exact .inr ⟨rfl, rfl⟩

/-- Numbers are ordered by their values as by their ranks. -/
theorem value_lt_iff (positive : 0 < f.exponent) (left : x.isNaN = false) (right : y.isNaN = false) :
    x.value < y.value ↔ x.rank < y.rank := by
  by_cases finite : x.isFinite = true
  · by_cases finite' : y.isFinite = true
    · rw [value_of_finite finite, value_of_finite finite', WithBot.coe_lt_coe, WithTop.coe_lt_coe, ← signedSteps_lt_iff,
        div_lt_div_iff_of_pos_right (Nat.cast_pos.2 f.stepsPerOne_pos), Int.cast_lt]
    · obtain ⟨⟨aboveBot, belowTop⟩, above, below⟩ := between_of_finite finite
      rcases extreme_of_infinite right finite' with ⟨value, rank⟩ | ⟨value, rank⟩
      · rw [value, rank]
        exact iff_of_false not_lt_bot above.not_gt
      · rw [value, rank]
        exact iff_of_true belowTop below
  · by_cases finite' : y.isFinite = true
    · obtain ⟨⟨aboveBot, belowTop⟩, above, below⟩ := between_of_finite finite'
      rcases extreme_of_infinite left finite with ⟨value, rank⟩ | ⟨value, rank⟩
      · rw [value, rank]
        exact iff_of_true aboveBot above
      · rw [value, rank]
        exact iff_of_false not_top_lt below.not_gt
    · have infinity : 0 < (f.infinity : Int) := Int.natCast_pos.2 (Format.infinity_pos positive)
      rcases extreme_of_infinite left finite with ⟨value, rank⟩ | ⟨value, rank⟩ <;>
        rcases extreme_of_infinite right finite' with ⟨value', rank'⟩ | ⟨value', rank'⟩ <;>
        rw [value, rank, value', rank']
      · exact iff_of_false (lt_irrefl _) (lt_irrefl _)
      · exact iff_of_true bot_lt_top (by omega)
      · exact iff_of_false not_top_lt (by omega)
      · exact iff_of_false (lt_irrefl _) (lt_irrefl _)

theorem order?_of_numbers (positive : 0 < f.exponent) (left : x.isNaN = false) (right : y.isNaN = false) :
    x.order? y = some (compare x.value y.value) := by
  have less := value_lt_iff positive left right
  have greater := value_lt_iff positive right left
  rw [order?, left, right]
  refine congrArg some ?_
  rcases lt_trichotomy x.rank y.rank with lt | same | gt
  · rw [compare_lt_iff_lt.2 lt, compare_lt_iff_lt.2 (less.2 lt)]
  · have same' : x.value = y.value := by
      apply le_antisymm
      · exact not_lt.1 fun gt => absurd same (greater.1 gt).ne'
      · exact not_lt.1 fun lt => absurd same (less.1 lt).ne
    rw [compare_eq_iff_eq.2 same, compare_eq_iff_eq.2 same']
  · rw [compare_gt_iff_gt.2 gt, compare_gt_iff_gt.2 (greater.2 gt)]

/-! ## Other formats, and integers -/

theorem value_convert (within : f.Within g) (notNan : x.isNaN = false) : (x.convert g).value = x.value := by
  by_cases finite : x.isFinite = true
  · have wide := widened_convert within finite
    have ratio : (within.ratio : ℚ) ≠ 0 := Nat.cast_ne_zero.2 (Nat.two_pow_pos _).ne'
    have signedSteps : (x.convert g).signedSteps = x.signedSteps * within.ratio := by
      rw [Binary.signedSteps, Binary.signedSteps, wide.isNegative, wide.steps]
      split
      · rw [Nat.cast_mul, Int.neg_mul]
      · rw [Nat.cast_mul]
    rw [value_of_finite wide.isFinite, value_of_finite finite, signedSteps, within.stepsPerOne_eq, Int.cast_mul,
      Nat.cast_mul, Int.cast_natCast, mul_comm (within.ratio : ℚ), mul_div_mul_right _ _ ratio]
  · have isInfinite := magnitude_of_not_finite notNan finite
    have room := g.infinity_lt_signWeight
    have notFinite : ¬ (x.convert g).isFinite = true := by rwa [isFinite_convert within]
    rw [value, if_neg notFinite, value, if_neg finite, convert_of_infinity isInfinite, isNegative_ofMagnitude _ room]

/-- An integer with few bits has a magnitude of its own, which is not too large. -/
theorem exists_magnitude_of_few {n : Nat} (few : n < 2 * 2 ^ f.fraction) (room : f.fraction < 2 ^ (f.exponent - 1))
    (two : 2 ≤ f.exponent) : ∃ m < f.infinity, f.stepsOf m = n * f.stepsPerOne := by
  obtain ⟨m, isSteps⟩ := Format.exists_stepsOf (2 ^ (f.exponent - 1) - 2 + f.fraction) few
  refine ⟨m, f.stepsOf_strictMono.lt_iff_lt.1 ?_, isSteps⟩
  have halves : 2 ^ f.exponent = 2 * 2 ^ (f.exponent - 1) := Format.two_pow_exponent (by omega)
  have least : 2 ≤ 2 ^ (f.exponent - 1) := Nat.le_self_pow (by omega) 2
  calc f.stepsOf m = n * 2 ^ (2 ^ (f.exponent - 1) - 2 + f.fraction) := isSteps
    _ < 2 * 2 ^ f.fraction * 2 ^ (2 ^ (f.exponent - 1) - 2 + f.fraction) :=
      Nat.mul_lt_mul_of_pos_right few (Nat.two_pow_pos _)
    _ = 2 ^ (f.fraction + 1 + (2 ^ (f.exponent - 1) - 2 + f.fraction)) := by
      rw [Nat.pow_add 2 (f.fraction + 1), Nat.pow_succ']
    _ ≤ 2 ^ (f.fraction + (2 ^ f.exponent - 2)) := Nat.pow_le_pow_right (Nat.succ_pos 1) (by omega)
    _ = f.stepsOf f.infinity := (Format.stepsOf_infinity (by omega)).symm

theorem value_ofInt {n : Int} (few : n.natAbs < 2 * 2 ^ f.fraction) (room : f.fraction < 2 ^ (f.exponent - 1))
    (two : 2 ≤ f.exponent) : (ofInt n : Binary f).value = ((n : ℚ) : WithTop ℚ) := by
  obtain ⟨m, finite, isSteps⟩ := exists_magnitude_of_few few room two
  have inside := finite.trans f.infinity_lt_signWeight
  have isOwn : (ofInt n : Binary f) = ofMagnitude (n < 0) m := by
    rw [ofInt, round, ← isSteps, ← Nat.mul_one (f.stepsOf m), roundedMagnitude_exact finite.le Nat.one_pos]
  have signedSteps : (ofMagnitude (n < 0) m : Binary f).signedSteps = n * f.stepsPerOne := by
    rw [Binary.signedSteps, isNegative_ofMagnitude _ inside, steps_eq, magnitude_ofMagnitude _ inside, isSteps,
      Nat.cast_mul]
    split
    · next negative => rw [Int.ofNat_natAbs_of_nonpos (of_decide_eq_true negative).le, Int.neg_mul, Int.neg_neg]
    · next notNegative => rw [Int.natAbs_of_nonneg (Int.not_lt.1 fun lt => notNegative (decide_eq_true lt))]
  have isFinite : (ofMagnitude (n < 0) m : Binary f).isFinite = true := by
    rwa [isFinite_iff, magnitude_ofMagnitude _ inside]
  have positive : (f.stepsPerOne : ℚ) ≠ 0 := Nat.cast_ne_zero.2 f.stepsPerOne_pos.ne'
  rw [isOwn, value_of_finite isFinite, signedSteps, Int.cast_mul, Int.cast_natCast, mul_div_cancel_right₀ _ positive]

end Binary

end RelEngine
