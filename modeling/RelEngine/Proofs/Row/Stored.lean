import RelEngine.Proofs.Value.Kinds
import RelEngine.Proofs.Value.NaN

/-!
A value that is read from a row is one that its column takes, and it is taken as it is. Only the payload of
a NaN may get lost on the way.
-/
namespace RelEngine

/-- The column may hold the value, and there are bytes for it. -/
structure Column.Storable (c : Column) (v : Value) : Prop where
  nullable : v = none → c.nullable = true
  encoded : ∀ a, v = some a → ∃ bytes, Row.encode c a = .ok bytes

namespace Column

variable {c : Column}

theorem checkText_of_encode {s : String} {bytes : Bytes} (type : c.type = .varchar)
    (h : Row.encode c (.text s) = .ok bytes) : c.checkText s = .ok () := by
  simp only [Row.encode, type] at h
  split at h
  · cases h
  split at h
  · cases h
  next fits noZero =>
    have clean : ¬ s.toList.contains '\x00' = true := by
      rwa [List.contains_iff_mem, ← Utf8.zero_mem_encode, ← List.contains_iff_mem]
    simp only [checkText, if_neg fits, if_neg clean]
    rfl

/-- A 32-bit number is in the range of 32-bit numbers. -/
theorem widened_in_range (x : Binary32) : ((x.convert Format.double).isFinite &&
    decide (largestFloat.magnitude < (x.convert Format.double).magnitude)) = false := by
  have within := Format.single_within_double
  rw [Binary.isFinite_convert within]
  cases finite : x.isFinite with
  | false => rfl
  | true =>
    have room : Format.single.infinity - 1 < Format.single.signWeight := by decide
    have top : (Binary.largest : Binary32).magnitude = _ := Binary.magnitude_ofMagnitude false room
    have isFinite : (Binary.largest : Binary32).isFinite = true := by
      rw [Binary.isFinite_iff, top]
      decide
    have small : x.magnitude ≤ (Binary.largest : Binary32).magnitude := by
      rw [top]
      exact Nat.le_pred_of_lt (Binary.isFinite_iff.1 finite)
    rw [Bool.true_and, largestFloat]
    exact decide_eq_false (Nat.not_lt.2 (Binary.magnitude_convert_le within small isFinite))

/-- What is stored in a column is taken by it as it is. -/
theorem convert_stored {a : Scalar} {bytes : Bytes} (h : Row.encode c a = .ok bytes) :
    ∃ b, c.convert a = .ok b ∧ Value.SameUpToNaN (some a) (some b) := by
  have type := (type_of_encode h).symm
  cases a with
  | bool b => exact ⟨.bool b, by simp only [convert, type, Scalar.type, Scalar.truth], .refl _⟩
  | int n =>
    exact ⟨.int n, by simp only [convert, type, Scalar.type, Scalar.whole?, Int32.ofInt_toInt], .refl _⟩
  | float x =>
    have converted : c.convert (.float x) = .ok (.float ((x.convert Format.double).convert Format.single)) := by
      simp only [convert, type, Scalar.type, Scalar.double?, widened_in_range]
      rfl
    refine ⟨_, converted, ?_⟩
    cases nan : x.isNaN with
    | false => exact .inl (by rw [Binary.convert_convert Format.single_within_double nan])
    | true =>
      have wide := (Binary.isNaN_convert (g := Format.double) (by decide) x).trans nan
      exact .inr ⟨nan, (Binary.isNaN_convert (g := Format.single) (by decide) _).trans wide, rfl⟩
  | double x =>
    refine ⟨.double x, ?_, .refl _⟩
    simp only [convert, type, Scalar.type, Scalar.double?]
    rfl
  | text s =>
    refine ⟨.text s, ?_, .refl _⟩
    simp only [convert, type, Scalar.type, checkText_of_encode type h]
    rfl

theorem normalize_stored {v : Value} (h : c.Storable v) : ∃ w, c.normalize v = .ok w ∧ Value.SameUpToNaN v w := by
  cases v with
  | none => exact ⟨none, by rw [normalize, if_pos (h.nullable rfl)], .refl _⟩
  | some a =>
    obtain ⟨bytes, isEncoded⟩ := h.encoded a rfl
    obtain ⟨b, converted, same⟩ := convert_stored isEncoded
    exact ⟨some b, by rw [normalize, converted]; rfl, same⟩

end Column

/-- What is read from a row that is sound and filled in can be stored again. -/
theorem Row.Sound.storable {schema : Schema} {row : Bytes} (h : Row.Sound schema (fun _ => False) row)
    (sized : ∀ c ∈ schema.columns, c.Sized) {name : String} {slot : Slot}
    (isSlot : schema.slot? name = some slot) : slot.column.Storable (read row slot) := by
  rw [read]
  cases isNull : isNullAt row slot.index with
  | true =>
    refine ⟨fun _ => ?_, ?_⟩
    · by_contra notNull
      rw [h.filled isSlot (Bool.not_eq_true _ ▸ notNull) not_false] at isNull
      cases isNull
    · rintro _ ⟨⟩
  | false =>
    obtain ⟨scalar, isEncoded⟩ := Column.encode_of_canonical (h.canonical isSlot isNull)
    have isSized := sized _ (Schema.column_mem isSlot)
    constructor
    · rintro ⟨⟩
    · rintro _ ⟨⟩
      exact ⟨field row slot, (Row.encode_spec isSized isEncoded).2.symm ▸ isEncoded⟩

end RelEngine
