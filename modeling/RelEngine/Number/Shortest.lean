import RelEngine.Number.Binary

/-!
The decimal text of a binary number: the fewest digits that read back to the same number, in
positional notation whatever the size.

The numbers that read back to `x` form an interval around its value. On each decimal grid, coarse to
fine, only the two neighbours of the value have to be tried.
-/
namespace RelEngine

/-- The number `digits * 10 ^ exponent`. -/
structure Decimal where
  digits : Nat
  exponent : Int

/-- A positive value `value / unit` with the bounds of what rounds to it. -/
structure RoundingInterval where
  low : Nat
  value : Nat
  high : Nat
  unit : Nat
  /-- The bounds themselves round to the value. -/
  closed : Bool

namespace RoundingInterval

/-- The reals that round to a positive finite number. Each bound is half a gap away, and below a power
of two the gap is half as wide. A bound belongs to the even one of its two neighbours. -/
def around {f : Format} (x : Binary f) : RoundingInterval where
  low := 4 * x.steps -
    if x.fractionField = 0 ∧ 1 < x.exponentField then x.gap else 2 * x.gap
  value := 4 * x.steps
  high := 4 * x.steps + 2 * x.gap
  unit := 4 * f.stepsPerOne
  closed := x.magnitude % 2 = 0

/-- The interval in multiples of `10 ^ k`. -/
def onGrid (r : RoundingInterval) (k : Int) : RoundingInterval :=
  let fine := Nat.pow 10 (-k).toNat
  { r with low := r.low * fine, value := r.value * fine, high := r.high * fine,
           unit := r.unit * Nat.pow 10 k.toNat }

def contains (r : RoundingInterval) (n : Nat) : Bool :=
  let p := n * r.unit
  if r.closed then r.low ≤ p && p ≤ r.high else r.low < p && p < r.high

/-- The whole number inside the interval that is nearest to the value; a tie goes up. -/
def nearest? (r : RoundingInterval) : Option Nat :=
  let n := r.value / r.unit
  match r.contains n, r.contains (n + 1) with
  | true, true => some (if 2 * (r.value % r.unit) < r.unit then n else n + 1)
  | true, false => some n
  | false, true => some (n + 1)
  | false, false => none

/-- A power of ten that is greater than the value. -/
def topExponent (r : RoundingInterval) : Int :=
  ((Nat.toDigits 10 r.value).length : Int) - (Nat.toDigits 10 r.unit).length + 1

/-- The first hit on the grids from the top one down. Seventeen significant digits tell all numbers of
64 bits apart, so twenty grids are enough. -/
def shortest (r : RoundingInterval) : Decimal :=
  let top := r.topExponent
  ((List.range 20).findSome? fun (i : Nat) =>
    ((r.onGrid (top - i)).nearest?).map fun n => Decimal.mk n (top - i)).getD ⟨0, 0⟩

end RoundingInterval

/-- Positional notation without an exponent, and without a point for whole numbers. -/
def Decimal.text (d : Decimal) : String :=
  if 0 ≤ d.exponent then Nat.repr (d.digits * Nat.pow 10 d.exponent.toNat)
  else
    let places := (-d.exponent).toNat
    let digits := Nat.toDigits 10 d.digits
    let padded := List.replicate (places + 1 - digits.length) '0' ++ digits
    let whole := padded.length - places
    String.ofList (padded.take whole ++ '.' :: padded.drop whole)

/-- The text of a number. Infinities are `inf`, and a NaN has no sign. -/
def Binary.text {f : Format} (x : Binary f) : String :=
  if x.isNaN then "NaN"
  else
    let magnitude :=
      if x.isInfinite then "inf"
      else if x.isZero then "0"
      else (RoundingInterval.around x).shortest.text
    if x.isNegative then "-" ++ magnitude else magnitude

end RelEngine
