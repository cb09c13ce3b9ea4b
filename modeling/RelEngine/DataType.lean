/-!
The five storable kinds of data, with the byte sizes of their fields and the tags that dumps use.
-/
namespace RelEngine

inductive DataType where
  | bool
  | int
  | float
  | double
  | varchar
  deriving DecidableEq

namespace DataType

/-- Bytes of a field of this type. A string field has no size of its own; its column declares one. -/
def fixedSize? : DataType → Option Nat
  | .bool | .int | .float => some 4
  | .double => some 8
  | .varchar => none

/-- Booleans count as numbers; only strings do not. -/
def isNumeric : DataType → Bool
  | .varchar => false
  | _ => true

/-- The byte that stands for the type in a dump. -/
def tag : DataType → Nat
  | .bool => 0
  | .int => 1
  | .float => 2
  | .double => 3
  | .varchar => 4

/-- The type that a tag stands for. -/
def ofTag? : Nat → Option DataType
  | 0 => some .bool
  | 1 => some .int
  | 2 => some .float
  | 3 => some .double
  | 4 => some .varchar
  | _ => none

def name : DataType → String
  | .bool => "BOOL"
  | .int => "INT"
  | .float => "FLOAT"
  | .double => "DOUBLE"
  | .varchar => "VARCHAR"

theorem ofTag?_tag (t : DataType) : ofTag? t.tag = some t := by
  cases t <;> rfl

theorem tag_of_ofTag? {n : Nat} {t : DataType} (h : ofTag? n = some t) : t.tag = n := by
  unfold ofTag? at h
  split at h <;> simp_all <;> subst h <;> rfl

end DataType

end RelEngine
