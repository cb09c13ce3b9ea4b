import RelEngine.Number.Binary

/-!
Arithmetic on bit patterns. Each operation takes the exact value of its operands, computes in the
integers and rounds once, to the nearest number and at a tie to the even one.

A NaN operand is handed on as a quiet NaN with its sign and payload, the left one first. An
operation without a value gives the negative quiet NaN.
-/
namespace RelEngine

/-- The whole number nearest to `num / den`; a tie goes to the even one. -/
def roundHalfEven (num den : Nat) : Nat :=
  let q := num / den
  let r := num % den
  if 2 * r < den then q
  else if den < 2 * r then q + 1
  else q + q % 2

namespace Binary

variable {f : Format}

/-- The magnitude bits nearest to `num / den` steps, or those of infinity if that is too large.

Dividing by `2 ^ shift` leaves at most one bit more than the fraction has. Rounding up to a power of
two carries into the exponent field by itself. -/
def roundedMagnitude (f : Format) (num den : Nat) : Nat :=
  let shift := (num / den).log2 - f.fraction
  min f.infinity (shift * Nat.pow 2 f.fraction + roundHalfEven num (den * Nat.pow 2 shift))

def round (negative : Bool) (num den : Nat) : Binary f :=
  ofMagnitude negative (roundedMagnitude f num den)

def negate (x : Binary f) : Binary f := ofMagnitude (!x.isNegative) x.magnitude

def quiet (x : Binary f) : Binary f := ofMagnitude x.isNegative (x.magnitude ||| f.quietBit)

/-- The NaN that an operation on `x` and `y` hands on. -/
def operandNaN? (x y : Binary f) : Option (Binary f) :=
  if x.isNaN then some x.quiet
  else if y.isNaN then some y.quiet
  else none

/-- The sum of two numbers of which none is a NaN. A sum of zero is negative only if both operands
are. -/
def addNumbers (x y : Binary f) : Binary f :=
  if x.isInfinite then
    if y.isInfinite && x.isNegative != y.isNegative then nan true else x
  else if y.isInfinite then y
  else
    let sum := x.signedSteps + y.signedSteps
    if sum = 0 then zero (x.isNegative && y.isNegative)
    else round (sum < 0) sum.natAbs 1

def add (x y : Binary f) : Binary f := (operandNaN? x y).getD (addNumbers x y)

def sub (x y : Binary f) : Binary f := (operandNaN? x y).getD (addNumbers x y.negate)

def mul (x y : Binary f) : Binary f :=
  let negative := x.isNegative != y.isNegative
  (operandNaN? x y).getD <|
    if x.isInfinite || y.isInfinite then
      if x.isZero || y.isZero then nan true else infinite negative
    else round negative (x.steps * y.steps) f.stepsPerOne

def div (x y : Binary f) : Binary f :=
  let negative := x.isNegative != y.isNegative
  (operandNaN? x y).getD <|
    if x.isInfinite then if y.isInfinite then nan true else infinite negative
    else if y.isInfinite then zero negative
    else if y.isZero then if x.isZero then nan true else infinite negative
    else round negative (x.steps * f.stepsPerOne) y.steps

def ofInt (n : Int) : Binary f := round (n < 0) (n.natAbs * f.stepsPerOne) 1

/-- The same number in another format, rounded if it has no room there. A NaN keeps its sign and the
leading bits of its payload. -/
def convert (g : Format) (x : Binary f) : Binary g :=
  if x.isNaN then
    let payload :=
      if f.fraction ≤ g.fraction then x.fractionField * Nat.pow 2 (g.fraction - f.fraction)
      else x.fractionField / Nat.pow 2 (f.fraction - g.fraction)
    quiet (ofMagnitude x.isNegative (g.infinity + payload))
  else if x.isInfinite then infinite x.isNegative
  else round x.isNegative (x.steps * g.stepsPerOne) f.stepsPerOne

/-- The integer part of a finite number. -/
def truncate (x : Binary f) : Int := x.signedSteps.tdiv f.stepsPerOne

/-- A finite number between two integers, both included. -/
def isBetween (x : Binary f) (low high : Int) : Bool :=
  x.isFinite && low * f.stepsPerOne ≤ x.signedSteps && x.signedSteps ≤ high * f.stepsPerOne

end Binary

end RelEngine
