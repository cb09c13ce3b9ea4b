import RelEngine.Proofs.Row.Canonical
import RelEngine.Value.Compare

/-!
Numbers can be compared with numbers, and strings with strings. A column takes and holds only values of its
own type, so columns of one kind can be compared without fail.
-/
namespace RelEngine

namespace Scalar

variable {a b : Scalar}

theorem double?_of_numeric (h : a.type.isNumeric = true) : ∃ x, a.double? = some x := by
  cases a with
  | bool b => exact ⟨_, rfl⟩
  | int n => exact ⟨_, rfl⟩
  | float x => exact ⟨_, rfl⟩
  | double x => exact ⟨_, rfl⟩
  | text s => cases h

theorem text_of_not_numeric (h : a.type.isNumeric = false) : ∃ s, a = .text s := by
  cases a with
  | text s => exact ⟨s, rfl⟩
  | bool | int | float | double => cases h

theorem order?_of_kind (same : a.type.isNumeric = b.type.isNumeric) : ∃ o, a.order? b = .ok o := by
  cases kind : b.type.isNumeric with
  | true =>
    obtain ⟨x, isLeft⟩ := double?_of_numeric (same.trans kind)
    obtain ⟨y, isRight⟩ := double?_of_numeric kind
    unfold order?
    split
    · exact ⟨_, rfl⟩
    · rw [isLeft, isRight]
      exact ⟨_, rfl⟩
  | false =>
    obtain ⟨s, rfl⟩ := text_of_not_numeric (same.trans kind)
    obtain ⟨t, rfl⟩ := text_of_not_numeric kind
    exact ⟨_, rfl⟩

end Scalar

namespace Column

variable {c d : Column} {v w : Value}

/-- The value is NULL or of the type of the column. -/
def Holds (c : Column) (v : Value) : Prop := ∀ a, v = some a → a.type = c.type

theorem relate_of_holds (same : c.type.isNumeric = d.type.isNumeric) (left : c.Holds v) (right : d.Holds w)
    (op : Comparison) : ∃ result, Value.relate op v w = .ok result := by
  cases v with
  | none => exact ⟨_, rfl⟩
  | some a =>
    cases w with
    | none => exact ⟨_, rfl⟩
    | some b =>
      obtain ⟨o, order⟩ : ∃ o, a.order? b = .ok o := by
        apply Scalar.order?_of_kind
        rw [left a rfl, right b rfl, same]
      exact ⟨_, by rw [Value.relate, order]; rfl⟩

theorem type_of_encode {a : Scalar} {bytes : Bytes} (h : Row.encode c a = .ok bytes) : a.type = c.type := by
  unfold Row.encode at h
  split at h
  · next type => exact type.symm
  · next type => exact type.symm
  · next type => exact type.symm
  · next type => exact type.symm
  · next type => exact type.symm
  · cases h

/-- What the column takes can be stored in it, so it is of its type. -/
theorem holds_of_normalize {raw : Value} (h : c.normalize raw = .ok v) : c.Holds v := by
  rintro a rfl
  obtain ⟨bytes, isEncoded⟩ := (normalize_eq_ok h).2 a rfl
  exact type_of_encode isEncoded

end Column

theorem Row.type_decode (type : DataType) (bytes : Bytes) : (decode type bytes).type = type := by
  cases type with
  | bool => rfl
  | int => rfl
  | float => rfl
  | double => rfl
  | varchar => rfl

theorem Row.holds_read (row : Bytes) (slot : Slot) : slot.column.Holds (read row slot) := by
  intro a isRead
  rw [read] at isRead
  split at isRead
  · cases isRead
  · cases isRead
    exact type_decode _ _

end RelEngine
