/-!
Binary floating-point numbers as bit patterns, for any pair of field widths.

A pattern holds a sign bit, an exponent field and a fraction field. Every finite number of a format
is a whole multiple of one smallest step, so its value is an integer of such steps and no operation
here or in `Number.Arith` leaves the integers.
-/
namespace RelEngine

/-- The widths of the two magnitude fields of a binary format. -/
structure Format where
  fraction : Nat
  exponent : Nat
  deriving DecidableEq

namespace Format

def single : Format := ⟨23, 8⟩

def double : Format := ⟨52, 11⟩

def width (f : Format) : Nat := f.fraction + f.exponent + 1

def signWeight (f : Format) : Nat := Nat.pow 2 (f.fraction + f.exponent)

/-- The magnitude bits of an infinity; larger magnitudes are NaNs. -/
def infinity (f : Format) : Nat := (Nat.pow 2 f.exponent - 1) * Nat.pow 2 f.fraction

/-- How many smallest steps make one. -/
def stepsPerOne (f : Format) : Nat :=
  Nat.pow 2 (Nat.pow 2 (f.exponent - 1) - 2 + f.fraction)

/-- The fraction bit that marks a quiet NaN. -/
def quietBit (f : Format) : Nat := Nat.pow 2 (f.fraction - 1)

end Format

/-- A bit pattern of the format `f`. -/
structure Binary (f : Format) where
  bits : BitVec f.width
  deriving DecidableEq

abbrev Binary32 := Binary Format.single
abbrev Binary64 := Binary Format.double

namespace Binary

variable {f : Format}

def ofBits (n : Nat) : Binary f := ⟨BitVec.ofNat f.width n⟩

def ofMagnitude (negative : Bool) (m : Nat) : Binary f :=
  ofBits (if negative then f.signWeight + m else m)

def isNegative (x : Binary f) : Bool := f.signWeight ≤ x.bits.toNat

def magnitude (x : Binary f) : Nat := x.bits.toNat % f.signWeight

def isNaN (x : Binary f) : Bool := f.infinity < x.magnitude

def isInfinite (x : Binary f) : Bool := x.magnitude = f.infinity

def isFinite (x : Binary f) : Bool := x.magnitude < f.infinity

def isZero (x : Binary f) : Bool := x.magnitude = 0

def exponentField (x : Binary f) : Nat := x.magnitude / Nat.pow 2 f.fraction

def fractionField (x : Binary f) : Nat := x.magnitude % Nat.pow 2 f.fraction

/-- The distance between neighbours at the exponent of a finite number, in steps. -/
def gap (x : Binary f) : Nat := Nat.pow 2 (x.exponentField - 1)

def steps (x : Binary f) : Nat :=
  if x.exponentField = 0 then x.fractionField
  else (Nat.pow 2 f.fraction + x.fractionField) * x.gap

def signedSteps (x : Binary f) : Int :=
  if x.isNegative then -(x.steps : Int) else x.steps

/-- The magnitude with the sign of the pattern. Numbers other than NaN are ordered like their ranks,
and both zeros have rank zero. -/
def rank (x : Binary f) : Int :=
  if x.isNegative then -(x.magnitude : Int) else x.magnitude

/-- The order of two numbers. A NaN has no order to anything. -/
def order? (x y : Binary f) : Option Ordering :=
  if x.isNaN || y.isNaN then none else some (compare x.rank y.rank)

/-- Numeric equality: zeros of both signs are equal, a NaN equals nothing. -/
def equal (x y : Binary f) : Bool := x.order? y = some .eq

def zero (negative : Bool) : Binary f := ofMagnitude negative 0

def infinite (negative : Bool) : Binary f := ofMagnitude negative f.infinity

/-- The quiet NaN with an empty payload. -/
def nan (negative : Bool) : Binary f := ofMagnitude negative (f.infinity + f.quietBit)

def largest : Binary f := ofMagnitude false (f.infinity - 1)

end Binary

end RelEngine
