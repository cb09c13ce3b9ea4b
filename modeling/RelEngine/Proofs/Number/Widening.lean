import Mathlib.Algebra.Order.Ring.Nat
import RelEngine.Number.Arith

/-!
Conversion of numbers to a wider format and back.

The magnitude bits of a format number its values in ascending order, so a value has the bits that the
conversion finds for it. A format with more bits in both fields has all values of the narrow one, and
rounding has nothing to do in either direction. A NaN stays a NaN.
-/
namespace RelEngine

namespace Format

variable {f g : Format} {m : Nat}

/-- Every finite number of `f` is one of `g` as well. -/
structure Within (f g : Format) : Prop where
  fraction : f.fraction ≤ g.fraction
  exponent : f.exponent ≤ g.exponent
  positive : 0 < f.fraction
  two_le : 2 ≤ f.exponent

theorem single_within_double : single.Within double := ⟨by decide, by decide, by decide, by decide⟩

/-! ## Magnitudes and their steps -/

/-- How many steps the magnitude bits `m` stand for. -/
def stepsOf (f : Format) (m : Nat) : Nat :=
  if m / Nat.pow 2 f.fraction = 0 then m % Nat.pow 2 f.fraction
  else (Nat.pow 2 f.fraction + m % Nat.pow 2 f.fraction) * Nat.pow 2 (m / Nat.pow 2 f.fraction - 1)

/-- The two fields of magnitude bits. -/
theorem exists_fields (f : Format) (m : Nat) : ∃ e r, r < 2 ^ f.fraction ∧ m = e * 2 ^ f.fraction + r :=
  ⟨m / 2 ^ f.fraction, m % 2 ^ f.fraction, Nat.mod_lt _ (Nat.two_pow_pos _),
    (Nat.div_add_mod' m _).symm⟩

theorem stepsOf_subnormal {r : Nat} (h : r < 2 ^ f.fraction) : f.stepsOf r = r := by
  rw [stepsOf, Nat.pow_eq, Nat.div_eq_of_lt h, if_pos rfl, Nat.mod_eq_of_lt h]

theorem stepsOf_normal {r : Nat} (h : r < 2 ^ f.fraction) (e : Nat) :
    f.stepsOf ((e + 1) * 2 ^ f.fraction + r) = (2 ^ f.fraction + r) * 2 ^ e := by
  have isExponent : ((e + 1) * 2 ^ f.fraction + r) / 2 ^ f.fraction = e + 1 := by
    rw [Nat.add_comm, Nat.add_mul_div_right _ _ (Nat.two_pow_pos _), Nat.div_eq_of_lt h, Nat.zero_add]
  have isFraction : ((e + 1) * 2 ^ f.fraction + r) % 2 ^ f.fraction = r := by
    rw [Nat.add_comm, Nat.add_mul_mod_self_right, Nat.mod_eq_of_lt h]
  rw [stepsOf, Nat.pow_eq, isExponent, isFraction, if_neg (Nat.succ_ne_zero e), Nat.add_sub_cancel,
    Nat.pow_eq]

theorem stepsOf_lt_succ (f : Format) (m : Nat) : f.stepsOf m < f.stepsOf (m + 1) := by
  obtain ⟨e, r, small, rfl⟩ := f.exists_fields m
  have positive := Nat.two_pow_pos f.fraction
  by_cases last : r + 1 = 2 ^ f.fraction
  · have carried : e * 2 ^ f.fraction + r + 1 = (e + 1) * 2 ^ f.fraction + 0 := by
      rw [Nat.add_assoc, last, Nat.succ_mul, Nat.add_zero]
    rw [carried, stepsOf_normal positive]
    cases e with
    | zero =>
      rw [Nat.zero_mul, Nat.zero_add, stepsOf_subnormal small]
      omega
    | succ e =>
      rw [stepsOf_normal small, Nat.pow_succ, ← Nat.mul_assoc, Nat.mul_right_comm]
      exact Nat.mul_lt_mul_of_pos_right (by omega) (Nat.two_pow_pos e)
  · have room : r + 1 < 2 ^ f.fraction := by omega
    rw [Nat.add_assoc]
    cases e with
    | zero =>
      rw [Nat.zero_mul, Nat.zero_add, Nat.zero_add, stepsOf_subnormal small, stepsOf_subnormal room]
      exact Nat.lt_succ_self r
    | succ e =>
      rw [stepsOf_normal small, stepsOf_normal room]
      exact Nat.mul_lt_mul_of_pos_right (by omega) (Nat.two_pow_pos e)

theorem stepsOf_strictMono (f : Format) : StrictMono f.stepsOf := strictMono_nat_of_lt_succ f.stepsOf_lt_succ

/-- Few leading bits, followed by zeros, are the steps of a magnitude. -/
theorem exists_stepsOf (j : Nat) {t : Nat} (few : t < 2 * 2 ^ f.fraction) : ∃ m, f.stepsOf m = t * 2 ^ j := by
  by_cases subnormal : t < 2 ^ f.fraction
  · -- A leading zero makes room for the next bit.
    induction j generalizing t with
    | zero => exact ⟨t, by rw [stepsOf_subnormal subnormal, Nat.pow_zero, Nat.mul_one]⟩
    | succ j ih =>
      rw [Nat.pow_succ', ← Nat.mul_assoc, Nat.mul_comm t 2]
      by_cases again : 2 * t < 2 ^ f.fraction
      · exact ih (by omega) again
      · refine ⟨(j + 1) * 2 ^ f.fraction + (2 * t - 2 ^ f.fraction), ?_⟩
        rw [stepsOf_normal (by omega), Nat.add_sub_cancel' (by omega)]
  · refine ⟨(j + 1) * 2 ^ f.fraction + (t - 2 ^ f.fraction), ?_⟩
    rw [stepsOf_normal (by omega), Nat.add_sub_cancel' (by omega)]

/-- The steps of a magnitude have few leading bits. -/
theorem stepsOf_eq (f : Format) (m : Nat) : ∃ t j, t < 2 * 2 ^ f.fraction ∧ f.stepsOf m = t * 2 ^ j := by
  obtain ⟨e, r, small, rfl⟩ := f.exists_fields m
  cases e with
  | zero =>
    refine ⟨r, 0, by omega, ?_⟩
    rw [Nat.zero_mul, Nat.zero_add, stepsOf_subnormal small, Nat.pow_zero, Nat.mul_one]
  | succ e => exact ⟨2 ^ f.fraction + r, e, by omega, stepsOf_normal small e⟩

/-! ## The bounds of a format -/

/-- What is above an infinity are the NaNs, one for each fraction but zero. -/
theorem signWeight_eq (f : Format) : f.signWeight = f.infinity + 2 ^ f.fraction := by
  rw [signWeight, infinity, Nat.pow_eq, Nat.pow_eq, Nat.pow_eq, ← Nat.succ_mul, Nat.succ_eq_add_one,
    Nat.sub_add_cancel (Nat.two_pow_pos _), ← Nat.pow_add, Nat.add_comm]

theorem infinity_lt_signWeight (f : Format) : f.infinity < f.signWeight := by
  rw [signWeight_eq]
  exact Nat.lt_add_of_pos_right (Nat.two_pow_pos _)

theorem width_eq (f : Format) : 2 ^ f.width = f.signWeight + f.signWeight := by
  rw [width, Nat.pow_succ, signWeight, Nat.pow_eq, Nat.mul_two]

theorem stepsPerOne_pos (f : Format) : 0 < f.stepsPerOne := Nat.two_pow_pos _

theorem stepsOf_infinity (positive : 0 < f.exponent) :
    f.stepsOf f.infinity = 2 ^ (f.fraction + (2 ^ f.exponent - 2)) := by
  have two : 2 ≤ 2 ^ f.exponent := Nat.le_self_pow positive.ne' 2
  obtain ⟨e, isLast⟩ : ∃ e, 2 ^ f.exponent - 1 = e + 1 := ⟨2 ^ f.exponent - 2, by omega⟩
  have same : 2 ^ f.exponent - 2 = e := by omega
  rw [infinity, Nat.pow_eq, Nat.pow_eq, isLast, ← Nat.add_zero ((e + 1) * 2 ^ f.fraction),
    stepsOf_normal (Nat.two_pow_pos _), Nat.add_zero, Nat.pow_add, same]

theorem two_pow_exponent (positive : 0 < f.exponent) : 2 ^ f.exponent = 2 * 2 ^ (f.exponent - 1) := by
  rw [← Nat.pow_succ', Nat.succ_eq_add_one, Nat.sub_add_cancel positive]

/-- How many steps of `g` make one of `f`. -/
def Within.ratio (_ : Within f g) : Nat :=
  2 ^ (2 ^ (g.exponent - 1) - 2 + g.fraction - (2 ^ (f.exponent - 1) - 2 + f.fraction))

namespace Within

variable (within : Within f g)

include within in
theorem bias_le : 2 ^ (f.exponent - 1) ≤ 2 ^ (g.exponent - 1) :=
  Nat.pow_le_pow_right (Nat.succ_pos 1) (Nat.sub_le_sub_right within.exponent 1)

theorem stepsPerOne_eq : g.stepsPerOne = within.ratio * f.stepsPerOne := by
  have bias := Nat.sub_le_sub_right within.bias_le 2
  have fraction := within.fraction
  rw [stepsPerOne, stepsPerOne, ratio, Nat.pow_eq, Nat.pow_eq, Nat.pow_eq, Nat.pow_eq, ← Nat.pow_add]
  congr 1
  omega

/-- The narrow format ends long before the wide one. -/
theorem stepsOf_infinity_le : f.stepsOf f.infinity * within.ratio ≤ g.stepsOf g.infinity := by
  have two := within.two_le
  have exponent := within.exponent
  have fraction := within.fraction
  have bias := within.bias_le
  have least : 2 ≤ 2 ^ (f.exponent - 1) := Nat.le_self_pow (by omega) 2
  rw [stepsOf_infinity (by omega), stepsOf_infinity (by omega), ratio, ← Nat.pow_add, two_pow_exponent (by omega),
    two_pow_exponent (by omega)]
  apply Nat.pow_le_pow_right (Nat.succ_pos 1)
  omega

/-- A magnitude of the narrow format has a counterpart of the same value. -/
theorem exists_counterpart (h : m < f.infinity) :
    ∃ n < g.infinity, g.stepsOf n = f.stepsOf m * within.ratio := by
  obtain ⟨t, j, few, isSteps⟩ := f.stepsOf_eq m
  have more : 2 ^ f.fraction ≤ 2 ^ g.fraction := Nat.pow_le_pow_right (Nat.succ_pos 1) within.fraction
  obtain ⟨n, isCounterpart⟩ : ∃ n, g.stepsOf n = f.stepsOf m * within.ratio := by
    rw [isSteps, ratio, Nat.mul_assoc, ← Nat.pow_add]
    exact exists_stepsOf _ (by omega)
  refine ⟨n, g.stepsOf_strictMono.lt_iff_lt.1 ?_, isCounterpart⟩
  rw [isCounterpart]
  exact (Nat.mul_lt_mul_of_pos_right (f.stepsOf_strictMono h) (Nat.two_pow_pos _)).trans_le
    within.stepsOf_infinity_le

end Within

end Format

/-! ## Rounding -/

theorem roundHalfEven_of_multiple (q : Nat) {den : Nat} (positive : 0 < den) :
    roundHalfEven (q * den) den = q := by
  rw [roundHalfEven, Nat.mul_mod_left, Nat.mul_div_cancel _ positive]
  exact if_pos positive

namespace Binary

variable {f g : Format} {m : Nat} {x y : Binary f}

/-- A value that the format has is not rounded. -/
theorem roundedMagnitude_exact (h : m ≤ f.infinity) {den : Nat} (positive : 0 < den) :
    roundedMagnitude f (f.stepsOf m * den) den = m := by
  obtain ⟨e, r, small, rfl⟩ := f.exists_fields m
  rw [roundedMagnitude, Nat.mul_div_cancel _ positive, Nat.pow_eq, Nat.pow_eq]
  cases e with
  | zero =>
    have noShift : r.log2 - f.fraction = 0 := by
      rcases Nat.eq_zero_or_pos r with rfl | some
      · rw [Nat.log2_zero, Nat.zero_sub]
      · exact Nat.sub_eq_zero_of_le ((Nat.log2_lt some.ne').2 small).le
    rw [Nat.zero_mul, Nat.zero_add] at h ⊢
    rw [Format.stepsOf_subnormal small, noShift, Nat.pow_zero, Nat.mul_one,
      roundHalfEven_of_multiple r positive, Nat.zero_mul, Nat.zero_add, Nat.min_eq_right h]
  | succ e =>
    have isLog : ((2 ^ f.fraction + r) * 2 ^ e).log2 = f.fraction + e := by
      have some := Nat.mul_pos (Nat.add_pos_left (Nat.two_pow_pos f.fraction) r) (Nat.two_pow_pos e)
      rw [Nat.log2_eq_iff some.ne', Nat.add_right_comm, Nat.pow_add, Nat.pow_add, Nat.pow_succ]
      exact ⟨Nat.mul_le_mul_right _ (Nat.le_add_right _ _),
        Nat.mul_lt_mul_of_pos_right (by omega) (Nat.two_pow_pos e)⟩
    have isShift : ((2 ^ f.fraction + r) * 2 ^ e).log2 - f.fraction = e := by
      rw [isLog, Nat.add_sub_cancel_left]
    rw [Format.stepsOf_normal small, isShift, Nat.mul_assoc, Nat.mul_comm (2 ^ e),
      roundHalfEven_of_multiple _ (Nat.mul_pos positive (Nat.two_pow_pos e)), ← Nat.add_assoc, ← Nat.succ_mul]
    exact Nat.min_eq_right h

/-! ## Bit patterns from a sign and a magnitude -/

theorem steps_eq (x : Binary f) : x.steps = f.stepsOf x.magnitude := rfl

theorem magnitude_lt (x : Binary f) : x.magnitude < f.signWeight := Nat.mod_lt _ (Nat.two_pow_pos _)

theorem toNat_ofMagnitude (negative : Bool) (h : m < f.signWeight) :
    (ofMagnitude negative m : Binary f).bits.toNat = if negative then f.signWeight + m else m := by
  rw [ofMagnitude, ofBits, BitVec.toNat_ofNat, Nat.mod_eq_of_lt]
  rw [f.width_eq]
  split <;> omega

theorem isNegative_ofMagnitude (negative : Bool) (h : m < f.signWeight) :
    (ofMagnitude negative m : Binary f).isNegative = negative := by
  rw [isNegative, toNat_ofMagnitude negative h]
  cases negative with
  | false => exact decide_eq_false (Nat.not_le.2 h)
  | true => exact decide_eq_true (Nat.le_add_right _ _)

theorem magnitude_ofMagnitude (negative : Bool) (h : m < f.signWeight) :
    (ofMagnitude negative m : Binary f).magnitude = m := by
  rw [magnitude, toNat_ofMagnitude negative h]
  cases negative with
  | false => exact Nat.mod_eq_of_lt h
  | true => exact (Nat.add_mod_left _ _).trans (Nat.mod_eq_of_lt h)

theorem ofMagnitude_eq (x : Binary f) : ofMagnitude x.isNegative x.magnitude = x := by
  have small := x.bits.isLt
  rw [f.width_eq] at small
  suffices same : (ofMagnitude x.isNegative x.magnitude : Binary f).bits.toNat = x.bits.toNat by
    exact congrArg Binary.mk (BitVec.eq_of_toNat_eq same)
  rw [toNat_ofMagnitude _ x.magnitude_lt]
  by_cases negative : f.signWeight ≤ x.bits.toNat
  · rw [isNegative, decide_eq_true negative, if_pos rfl, magnitude, Nat.mod_eq_sub_mod negative,
      Nat.mod_eq_of_lt (by omega), Nat.add_sub_cancel' negative]
  · rw [isNegative, decide_eq_false negative, if_neg Bool.false_ne_true, magnitude,
      Nat.mod_eq_of_lt (Nat.not_le.1 negative)]

/-! ## NaNs -/

theorem isNaN_ofMagnitude (negative : Bool) (h : m ≤ f.infinity) :
    (ofMagnitude negative m : Binary f).isNaN = false := by
  rw [isNaN, magnitude_ofMagnitude negative (h.trans_lt f.infinity_lt_signWeight)]
  exact decide_eq_false (Nat.not_lt.2 h)

theorem isNaN_round (negative : Bool) (num den : Nat) : (round negative num den : Binary f).isNaN = false :=
  isNaN_ofMagnitude negative (Nat.min_le_left _ _)

theorem isNaN_quiet (positive : 0 < f.fraction) (h : f.infinity ≤ x.magnitude) : x.quiet.isNaN = true := by
  have bit : f.quietBit < 2 ^ (f.fraction + f.exponent) :=
    Nat.pow_lt_pow_right (Nat.lt_succ_self 1) (by omega)
  have room : x.magnitude ||| f.quietBit < f.signWeight := Nat.or_lt_two_pow x.magnitude_lt bit
  rw [isNaN, quiet, magnitude_ofMagnitude _ room]
  apply decide_eq_true
  apply lt_of_le_of_ne (h.trans Nat.left_le_or)
  intro same
  -- An infinity has no fraction bits.
  have marked := congrArg (Nat.testBit · (f.fraction - 1)) same
  have unset : f.infinity.testBit (f.fraction - 1) = false := by
    rw [Format.infinity, Nat.pow_eq, Nat.pow_eq, Nat.testBit_mul_two_pow, decide_eq_false (by omega),
      Bool.false_and]
  have set : f.quietBit.testBit (f.fraction - 1) = true := Nat.testBit_two_pow_self
  simp only [Nat.testBit_or, unset, set, Bool.or_true] at marked
  exact nomatch marked

/-- The part of a payload that the other format has bits for. -/
theorem payload_lt (g : Format) (x : Binary f) :
    (if f.fraction ≤ g.fraction then x.fractionField * Nat.pow 2 (g.fraction - f.fraction)
      else x.fractionField / Nat.pow 2 (f.fraction - g.fraction)) < 2 ^ g.fraction := by
  have field : x.fractionField < 2 ^ f.fraction := Nat.mod_lt _ (Nat.two_pow_pos _)
  split
  · next wider =>
    rw [← Nat.add_sub_cancel' wider, Nat.pow_add, Nat.add_sub_cancel_left]
    exact Nat.mul_lt_mul_of_pos_right field (Nat.two_pow_pos _)
  · next narrower =>
    apply Nat.div_lt_of_lt_mul
    rw [Nat.pow_eq, ← Nat.pow_add, Nat.sub_add_cancel (Nat.not_le.1 narrower).le]
    exact field

theorem isNaN_convert (positive : 0 < g.fraction) (x : Binary f) : (x.convert g).isNaN = x.isNaN := by
  rw [convert]
  split
  · next nan =>
    rw [nan]
    refine isNaN_quiet positive ?_
    rw [magnitude_ofMagnitude _ (g.signWeight_eq ▸ Nat.add_lt_add_left (payload_lt g x) _)]
    exact Nat.le_add_right _ _
  · next notNan =>
    rw [Bool.not_eq_true] at notNan
    rw [notNan]
    split
    · exact isNaN_ofMagnitude _ le_rfl
    · exact isNaN_round _ _ _

/-! ## To a wider format and back -/

theorem isFinite_iff : x.isFinite = true ↔ x.magnitude < f.infinity := decide_eq_true_iff

/-- A number that is not finite has the magnitude of an infinity. -/
theorem magnitude_of_not_finite (notNan : x.isNaN = false) (notFinite : ¬ x.isFinite = true) :
    x.magnitude = f.infinity := by
  rw [isFinite_iff, Nat.not_lt] at notFinite
  exact Nat.le_antisymm (Nat.not_lt.1 (of_decide_eq_false notNan)) notFinite

theorem convert_of_isFinite (h : x.isFinite = true) :
    x.convert g = round x.isNegative (x.steps * g.stepsPerOne) f.stepsPerOne := by
  rw [isFinite_iff] at h
  rw [convert, isNaN, decide_eq_false (Nat.not_lt.2 h.le), isInfinite, decide_eq_false h.ne]
  rfl

theorem convert_of_infinity (h : x.magnitude = f.infinity) :
    x.convert g = ofMagnitude x.isNegative g.infinity := by
  rw [convert, isNaN, h, decide_eq_false (Nat.lt_irrefl _), isInfinite, h, decide_eq_true rfl]
  rfl

/-- A number has the pattern of its sign and its steps. -/
theorem round_eq (h : x.isFinite = true) {num den : Nat} (positive : 0 < den) (isValue : num = x.steps * den) :
    round x.isNegative num den = x := by
  rw [round, isValue, steps_eq, roundedMagnitude_exact (isFinite_iff.1 h).le positive, ofMagnitude_eq]

/-- The same number in a wider format. -/
structure Widened (x : Binary f) (within : f.Within g) (y : Binary g) : Prop where
  isNegative : y.isNegative = x.isNegative
  isFinite : y.isFinite = true
  steps : y.steps = x.steps * within.ratio

theorem widened_convert (within : f.Within g) (h : x.isFinite = true) : Widened x within (x.convert g) := by
  obtain ⟨n, finite, isCounterpart⟩ := within.exists_counterpart (isFinite_iff.1 h)
  have room := finite.trans g.infinity_lt_signWeight
  have isWide : x.convert g = ofMagnitude x.isNegative n := by
    rw [convert_of_isFinite h, round, steps_eq, within.stepsPerOne_eq, ← Nat.mul_assoc, ← isCounterpart,
      roundedMagnitude_exact finite.le f.stepsPerOne_pos]
  rw [isWide]
  refine ⟨isNegative_ofMagnitude _ room, ?_, ?_⟩
  · rwa [isFinite_iff, magnitude_ofMagnitude _ room]
  · rw [steps_eq, magnitude_ofMagnitude _ room, isCounterpart, steps_eq]

theorem isFinite_convert (within : f.Within g) (x : Binary f) : (x.convert g).isFinite = x.isFinite := by
  rcases lt_trichotomy x.magnitude f.infinity with finite | isInfinite | nan
  · have finite' := isFinite_iff.2 finite
    rw [finite', (widened_convert within finite').isFinite]
  · rw [convert_of_infinity isInfinite, isFinite, isFinite, magnitude_ofMagnitude _ g.infinity_lt_signWeight,
      isInfinite, decide_eq_false (Nat.lt_irrefl _), decide_eq_false (Nat.lt_irrefl _)]
  · have nan' := isNaN_convert (within.fraction.trans_lt' within.positive) x
    rw [isNaN, isNaN, decide_eq_true nan, decide_eq_true_iff] at nan'
    rw [isFinite, isFinite, decide_eq_false nan'.not_gt, decide_eq_false nan.not_gt]

/-- Each number comes back from a wider format as it was. -/
theorem convert_convert (within : f.Within g) (notNan : x.isNaN = false) : (x.convert g).convert f = x := by
  by_cases finite : x.isFinite = true
  · have wide := widened_convert within finite
    rw [convert_of_isFinite wide.isFinite, wide.isNegative]
    refine round_eq finite g.stepsPerOne_pos ?_
    rw [wide.steps, within.stepsPerOne_eq, Nat.mul_assoc]
  · have isInfinite := magnitude_of_not_finite notNan finite
    have room := g.infinity_lt_signWeight
    rw [convert_of_infinity isInfinite, convert_of_infinity (magnitude_ofMagnitude _ room),
      isNegative_ofMagnitude _ room, ← isInfinite, ofMagnitude_eq]

/-- Widening keeps the order of magnitudes. -/
theorem magnitude_convert_le {y : Binary f} (within : f.Within g) (h : x.magnitude ≤ y.magnitude)
    (finite : y.isFinite = true) : (x.convert g).magnitude ≤ (y.convert g).magnitude := by
  have finite' : x.isFinite = true := isFinite_iff.2 (h.trans_lt (isFinite_iff.1 finite))
  rw [← g.stepsOf_strictMono.le_iff_le, ← steps_eq, ← steps_eq, (widened_convert within finite').steps,
    (widened_convert within finite).steps]
  exact Nat.mul_le_mul_right _ (f.stepsOf_strictMono.monotone h)

end Binary

end RelEngine
