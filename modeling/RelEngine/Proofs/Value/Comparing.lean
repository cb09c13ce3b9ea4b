import RelEngine.Proofs.Number.Values
import RelEngine.Proofs.Text.Order
import RelEngine.Proofs.Value.Kinds
import RelEngine.Proofs.Value.NaN

/-!
The comparison of values as an order. Numbers of all types stand in one order, that of their exact values, and strings
in another one, that of their bytes. NULL and NaN have no place in either.

What is shown of an order follows from the keys that it goes by. The main statement is `Value.relate_exact`.
-/
namespace RelEngine

namespace Scalar

variable {a b : Scalar} {x y : Binary64} {k : ExtendedRat}

/-- The exact value of a number, which is not widened for this. -/
def number? : Scalar → Option ExtendedRat
  | .bool b => some ((b.toInt : ℚ) : WithTop ℚ)
  | .int n => some ((n.toInt : ℚ) : WithTop ℚ)
  | .float x => if x.isNaN then none else some x.value
  | .double x => if x.isNaN then none else some x.value
  | .text _ => none

theorem value_ofInt32 {n : Int} (low : -2 ^ 31 ≤ n) (high : n < 2 ^ 31) :
    (Binary.ofInt n : Binary64).value = ((n : ℚ) : WithTop ℚ) :=
  Binary.value_ofInt (Nat.lt_of_le_of_lt (m := 2 ^ 31) (by omega) (by decide)) (by decide) (by decide)

/-- Widening a number keeps its value. -/
theorem number?_of_double? (isNumber : a.double? = some x) (notNan : x.isNaN = false) : a.number? = some x.value := by
  cases a with
  | bool b =>
    cases isNumber
    rw [value_ofInt32 (by cases b <;> decide) (by cases b <;> decide)]
    rfl
  | int n =>
    cases isNumber
    rw [value_ofInt32 n.le_toInt n.toInt_lt]
    rfl
  | float x =>
    cases isNumber
    rw [Binary.isNaN_convert (by decide)] at notNan
    rw [number?, notNan, Binary.value_convert Format.single_within_double notNan]
    rfl
  | double x =>
    cases isNumber
    rw [number?, notNan]
    rfl
  | text s => cases isNumber

theorem exists_number?_iff : (∃ k, a.number? = some k) ↔ a.type.isNumeric = true ∧ a.isNaN = false := by
  have ofFloat {f : Format} (x : Binary f) :
      (∃ k, (if x.isNaN then none else some x.value) = some k) ↔ x.isNaN = false := by
    cases x.isNaN with
    | true => exact ⟨nofun, nofun⟩
    | false => exact ⟨fun _ => rfl, fun _ => ⟨_, rfl⟩⟩
  cases a with
  | bool b => exact ⟨fun _ => ⟨rfl, rfl⟩, fun _ => ⟨_, rfl⟩⟩
  | int n => exact ⟨fun _ => ⟨rfl, rfl⟩, fun _ => ⟨_, rfl⟩⟩
  | float x => exact (ofFloat x).trans ⟨fun h => ⟨rfl, h⟩, And.right⟩
  | double x => exact (ofFloat x).trans ⟨fun h => ⟨rfl, h⟩, And.right⟩
  | text s => exact ⟨nofun, fun h => nomatch h.1⟩

/-- A number with an exact value is compared by a double that has this value. -/
theorem double?_of_number? (h : a.number? = some k) : ∃ x, a.double? = some x ∧ x.isNaN = false ∧ x.value = k := by
  obtain ⟨isNumeric, notNan⟩ := exists_number?_iff.1 ⟨k, h⟩
  obtain ⟨x, isNumber⟩ := double?_of_numeric isNumeric
  rw [← isNaN_of_double? isNumber] at notNan
  exact ⟨x, isNumber, notNan, Option.some.inj ((number?_of_double? isNumber notNan).symm.trans h)⟩

theorem order?_of_double? (left : a.double? = some x) (right : b.double? = some y) :
    a.order? b = .ok (x.order? y) := by
  rw [order?]
  · simp only [left, right]
  · rintro s t rfl
    cases left

end Scalar

namespace Value

variable {u v w : Value}

/-- The comparison of the two values says that the left one is less. -/
def Less (v w : Value) : Prop := relate .lt v w = .ok (ofBool true)

/-- How the left value stands to the right one. -/
def Stands : Ordering → Value → Value → Prop
  | .lt, v, w => Less v w
  | .eq, v, w => Equals v w
  | .gt, v, w => Less w v

theorem relate_of_order? {a b : Scalar} {o : Option Ordering} (order : a.order? b = .ok o) (op : Comparison) :
    relate op (some a) (some b) = .ok (ofBool (op.holds o)) := by
  rw [relate, order]
  rfl

/-! ## Keys -/

/-- The values that have a key are compared by their keys, and equal none that have no key. -/
structure ComparedBy {κ : Type} [LinearOrder κ] (key : Value → Option κ) : Prop where
  relates : ∀ {v w k l}, key v = some k → key w = some l →
    ∀ op, relate op v w = .ok (ofBool (op.holds (some (compare k l))))
  closed : ∀ {v w k}, key v = some k → Equals v w → ∃ l, key w = some l

/-- An order of the values of a class. Two of them can always be compared, exactly one of the three answers is true,
and equal values cannot be told apart by comparing them with others. -/
structure Ordered (inClass : Value → Prop) : Prop where
  answers : ∀ {v w}, inClass v → inClass w → ∀ op, ∃ b, relate op v w = .ok (ofBool b)
  one : ∀ {v w}, inClass v → inClass w → ∃! o, Stands o v w
  less_trans : ∀ {u v w}, inClass u → inClass v → inClass w → Less u v → Less v w → Less u w
  equivalence : Equivalence fun v w : {v // inClass v} => Equals v w
  replace : ∀ {u v w}, inClass u → inClass w → Equals u v →
    ∀ op, relate op u w = relate op v w ∧ relate op w u = relate op w v

theorem ofBool_inj {b c : Bool} : ofBool b = ofBool c ↔ b = c :=
  ⟨fun h => Scalar.bool.inj (Option.some.inj h), congrArg ofBool⟩

namespace ComparedBy

variable {κ : Type} [LinearOrder κ] {key : Value → Option κ} (compared : ComparedBy key) {k l : κ}

include compared

theorem less_iff (left : key v = some k) (right : key w = some l) : Less v w ↔ k < l := by
  rw [Less, compared.relates left right, Except.ok.injEq, ofBool_inj, Comparison.holds, decide_eq_true_iff,
    Option.some.injEq, compare_lt_iff_lt]

theorem equals_iff (left : key v = some k) (right : key w = some l) : Equals v w ↔ k = l := by
  rw [Equals, compared.relates left right, Except.ok.injEq, ofBool_inj, Comparison.holds, decide_eq_true_iff,
    Option.some.injEq, compare_eq_iff_eq]

theorem stands_iff (left : key v = some k) (right : key w = some l) (o : Ordering) :
    Stands o v w ↔ compare k l = o := by
  cases o with
  | lt => exact (compared.less_iff left right).trans compare_lt_iff_lt.symm
  | eq => exact (compared.equals_iff left right).trans compare_eq_iff_eq.symm
  | gt => exact (compared.less_iff right left).trans compare_gt_iff_gt.symm

/-- What a value equals has the same key. -/
theorem key_of_equals (isKey : key v = some k) (h : Equals v w) : key w = some k := by
  obtain ⟨l, isKey'⟩ := compared.closed isKey h
  rw [isKey', (compared.equals_iff isKey isKey').1 h]

/-- All laws are those of the keys. -/
theorem ordered {inClass : Value → Prop} (isClass : ∀ v, inClass v ↔ ∃ k, key v = some k) : Ordered inClass where
  answers := by
    intro v w left right op
    obtain ⟨k, isKey⟩ := (isClass v).1 left
    obtain ⟨l, isKey'⟩ := (isClass w).1 right
    exact ⟨_, compared.relates isKey isKey' op⟩
  one := by
    intro v w left right
    obtain ⟨k, isKey⟩ := (isClass v).1 left
    obtain ⟨l, isKey'⟩ := (isClass w).1 right
    refine ⟨compare k l, (compared.stands_iff isKey isKey' _).2 rfl, fun o stands => ?_⟩
    exact ((compared.stands_iff isKey isKey' o).1 stands).symm
  less_trans := by
    intro u v w left middle right less less'
    obtain ⟨j, isKey⟩ := (isClass u).1 left
    obtain ⟨k, isKey'⟩ := (isClass v).1 middle
    obtain ⟨l, isKey''⟩ := (isClass w).1 right
    rw [compared.less_iff isKey isKey'] at less
    rw [compared.less_iff isKey' isKey''] at less'
    exact (compared.less_iff isKey isKey'').2 (less.trans less')
  equivalence := by
    refine ⟨fun ⟨v, inside⟩ => ?_, Equals.symm, Equals.trans⟩
    obtain ⟨k, isKey⟩ := (isClass v).1 inside
    exact (compared.equals_iff isKey isKey).2 rfl
  replace := by
    intro u v w inside inside' same op
    obtain ⟨k, isKey⟩ := (isClass u).1 inside
    obtain ⟨l, isKey'⟩ := (isClass w).1 inside'
    have isKey'' := compared.key_of_equals isKey same
    constructor
    · rw [compared.relates isKey isKey', compared.relates isKey'' isKey']
    · rw [compared.relates isKey' isKey, compared.relates isKey' isKey'']

end ComparedBy

/-! ## Numbers and strings -/

def number? (v : Value) : Option ExtendedRat := v.bind Scalar.number?

def text? : Value → Option String
  | some (.text s) => some s
  | _ => none

theorem exists_number?_iff : (∃ k, v.number? = some k) ↔ v.isNumeric = true ∧ v.isNaN = false := by
  cases v with
  | none => exact ⟨nofun, fun h => nomatch h.1⟩
  | some a => exact Scalar.exists_number?_iff

theorem text?_eq_some {s : String} : v.text? = some s ↔ v = some (.text s) := by
  cases v with
  | none => exact ⟨nofun, nofun⟩
  | some a =>
    cases a with
    | text t => exact ⟨fun h => by cases h; rfl, fun h => by cases h; rfl⟩
    | bool | int | float | double => exact ⟨nofun, nofun⟩

/-- Numbers of any types are compared by their exact values. -/
theorem comparedBy_number? : ComparedBy number? where
  relates := by
    intro v w k l left right op
    obtain ⟨a, rfl, left⟩ := Option.bind_eq_some_iff.1 left
    obtain ⟨b, rfl, right⟩ := Option.bind_eq_some_iff.1 right
    obtain ⟨x, isLeft, notNan, rfl⟩ := Scalar.double?_of_number? left
    obtain ⟨y, isRight, notNan', rfl⟩ := Scalar.double?_of_number? right
    rw [← Binary.order?_of_numbers (by decide) notNan notNan']
    exact relate_of_order? (Scalar.order?_of_double? isLeft isRight) op
  closed := by
    intro v w k hasValue equal
    obtain ⟨a, rfl, hasValue⟩ := Option.bind_eq_some_iff.1 hasValue
    obtain ⟨_, b, ⟨⟩, rfl, order⟩ := equals_iff.1 equal
    rcases Scalar.order?_eq.1 order with ⟨s, rfl, rfl⟩ | ⟨x, y, _, isNumber, order⟩
    · cases hasValue
    · exact ⟨_, Scalar.number?_of_double? isNumber (Binary.order?_eq.1 order).2.1⟩

/-- Strings are compared by themselves, and equal strings only. -/
theorem comparedBy_text? : ComparedBy text? where
  relates := by
    intro v w s t left right op
    rw [text?_eq_some] at left right
    rw [left, right]
    exact relate_of_order? rfl op
  closed := by
    intro v w s isText equal
    rw [text?_eq_some] at isText
    obtain ⟨a, b, rfl, rfl, order⟩ := equals_iff.1 equal
    cases isText
    rcases Scalar.order?_eq.1 order with ⟨s, ⟨⟩, rfl⟩ | ⟨x, _, isNumber, _⟩
    · exact ⟨s, rfl⟩
    · cases isNumber

/-- NULL is identical to NULL, and equal values are identical; nothing else is. -/
theorem identical_iff : identical v w = true ↔ v = none ∧ w = none ∨ Equals v w := by
  constructor
  · intro same
    by_cases isNull : v = none
    · subst isNull
      exact .inl ⟨rfl, identical_none same⟩
    · exact .inr (equals_of_identical same isNull)
  · rintro (⟨rfl, rfl⟩ | equal)
    · rfl
    · exact equal.identical

/-- A number and a string cannot be compared. -/
theorem relate_of_kinds {a b : Scalar} (differ : a.type.isNumeric ≠ b.type.isNumeric) (op : Comparison) :
    relate op (some a) (some b) = .error (.typeMismatch a.type b.type) := by
  have order : a.order? b = .error (.typeMismatch a.type b.type) := by
    cases a with
    | text s =>
      cases b with
      | text t => exact absurd rfl differ
      | bool | int | float | double => rfl
    | bool | int | float | double =>
      cases b with
      | text t => rfl
      | bool | int | float | double => exact absurd rfl differ
  rw [relate, order]
  rfl

theorem not_equals_of_kinds {a b : Scalar} (differ : a.type.isNumeric ≠ b.type.isNumeric) :
    ¬ Equals (some a) (some b) := by
  intro equal
  rw [Equals, relate_of_kinds differ] at equal
  cases equal

/-- Numbers of all types that are no NaNs are ordered by their exact values, and strings by their bytes. In both orders
two values can always be compared, and values that are equal stand alike to all others. A string equals only itself.
Identity is equality, but that NULL is identical to NULL; it holds of no number and string, where the comparison
fails. -/
theorem relate_exact :
    Ordered (fun v => v.isNumeric = true ∧ v.isNaN = false) ∧ Ordered (fun v => ∃ s, v = some (.text s)) ∧
    (∀ s v, Equals (some (.text s)) v ↔ v = some (.text s)) ∧
    (∀ v w, (identical v w = true ↔ v = none ∧ w = none ∨ Equals v w) ∧ is v w = ofBool (identical v w)) ∧
    (∀ a b : Scalar, a.type.isNumeric ≠ b.type.isNumeric →
      (∀ op, relate op (some a) (some b) = .error (.typeMismatch a.type b.type)) ∧
        identical (some a) (some b) = false) ∧
    (∀ v w x y, v.number? = some x → w.number? = some y → (Less v w ↔ x < y) ∧ (Equals v w ↔ x = y)) ∧
    ∀ s t, Less (some (.text s)) (some (.text t)) ↔ Utf8.encode s < Utf8.encode t := by
  refine ⟨comparedBy_number?.ordered fun v => exists_number?_iff.symm, comparedBy_text?.ordered fun v => ?_,
    fun s v => ?_, fun v w => ⟨identical_iff, rfl⟩, fun a b differ => ⟨relate_of_kinds differ, ?_⟩,
    fun v w x y left right => ⟨comparedBy_number?.less_iff left right, comparedBy_number?.equals_iff left right⟩,
    fun s t => ?_⟩
  · exact exists_congr fun s => text?_eq_some.symm
  · constructor
    · exact fun equal => text?_eq_some.1 (comparedBy_text?.key_of_equals rfl equal)
    · rintro rfl
      exact (comparedBy_text?.equals_iff rfl rfl).2 rfl
  · rw [Bool.eq_false_iff, ne_eq, identical_iff]
    rintro (⟨⟨⟩, _⟩ | equal)
    exact not_equals_of_kinds differ equal
  · exact (comparedBy_text?.less_iff rfl rfl).trans Utf8.encode_lt_iff.symm

/-- As a single the integer would be rounded to the other number. -/
example : relate .lt (some (.float (.ofBits 0x4b800000))) (some (.int 16777217)) = .ok (ofBool true) := by
  decide +kernel

end Value

end RelEngine
