import RelEngine.Proofs.Row.Canonical
import RelEngine.Proofs.Scan.Moves

/-!
Writing one field of a packed row: which values are taken, what is read afterwards, and what stays.

The main statement is `Row.set_exact`.
-/
namespace RelEngine

/-- The values that a column can hold: NULL, and scalars of its type. A string must fit into the field and have
no zero byte. -/
def Column.Takes (c : Column) : Value → Prop
  | none => True
  | some scalar => scalar.type = c.type ∧
    ∀ s, scalar = .text s → (Utf8.encode s).length ≤ c.size ∧ '\x00' ∉ s.toList

namespace Row

variable {schema : Schema} {row after : Bytes} {name : String} {value : Value} {c : Column}

theorem encode_eq_ok {scalar : Scalar} :
    (∃ bytes, encode c scalar = .ok bytes) ↔ c.Takes (some scalar) := by
  unfold Column.Takes encode
  cases type : c.type with
  | bool => cases scalar <;> simp [Scalar.type]
  | int => cases scalar <;> simp [Scalar.type]
  | float => cases scalar <;> simp [Scalar.type]
  | double => cases scalar <;> simp [Scalar.type]
  | varchar =>
    cases scalar with
    | bool | int | float | double => simp [Scalar.type]
    | text s =>
      simp only [Scalar.type, Scalar.text.injEq, true_and]
      by_cases long : c.size < (Utf8.encode s).length
      · simp [long, Nat.not_le.2 long]
      · by_cases zero : '\x00' ∈ s.toList
        · simp [long, Utf8.zero_mem_encode, zero]
        · simp [long, Utf8.zero_mem_encode, zero]
          omega

/-- A write asks for nothing but that the column can hold the value. -/
theorem set_eq_ok_iff {slot : Slot} (found : schema.slot? name = some slot) (row : Bytes) :
    (∃ after, set schema row name value = .ok after) ↔ slot.column.Takes value := by
  rw [set, Schema.slot_eq_ok.2 found, Checked.ok_bind]
  cases value with
  | none => exact ⟨fun _ => trivial, fun _ => ⟨_, rfl⟩⟩
  | some scalar =>
    rw [← encode_eq_ok]
    constructor
    · rintro ⟨after, h⟩
      obtain ⟨bytes, isEncoded, -⟩ := Checked.bind_eq_ok.1 h
      exact ⟨bytes, isEncoded⟩
    · rintro ⟨bytes, isEncoded⟩
      simp only [isEncoded]
      exact ⟨_, rfl⟩

/-! ## In place -/

/-- The write as a change of the buffer itself, piece by piece: the bytes of the field, then its null bit. -/
def setInPlace (schema : Schema) (name : String) (value : Value) : Move Bytes Unit := do
  let slot ← schema.slot name
  match value with
  | none => modify (markNull · slot.index)
  | some scalar =>
    let bytes ← encode slot.column scalar
    modify (Bytes.overwrite · slot.offset bytes)
    modify (clearNull · slot.index)

/-- All checks come before the first byte is changed. -/
theorem runFrom_setInPlace (schema : Schema) (name : String) (value : Value) (row : Bytes) :
    (setInPlace schema name value).runFrom row =
      match set schema row name value with
      | .ok after => (.ok (), after)
      | .error e => (.error e, row) := by
  unfold setInPlace set
  rw [Move.runFrom_bind, Move.runFrom_lift]
  cases schema.slot name with
  | error e => rfl
  | ok slot =>
    cases value with
    | none => rfl
    | some scalar =>
      simp only [Move.runFrom_bind, Move.runFrom_lift, Checked.ok_bind]
      cases encode slot.column scalar with
      | error e => rfl
      | ok bytes => rfl

/-! ## What is read afterwards -/

/-- The row after a write into one of its fields. -/
structure Wrote (schema : Schema) (name : String) (value : Value) (row after : Bytes) : Prop where
  length : after.length = row.length
  field : get schema after name = .ok value
  others : ∀ other ≠ name, isNull schema after other = isNull schema row other ∧
    get schema after other = get schema row other
  /-- NULL changes nothing but a null bit. -/
  bytes : value = none → after.drop schema.bitmapSize = row.drop schema.bitmapSize

theorem isNull_set_other (sized : ∀ c ∈ schema.columns, c.Sized) (whole : row.length = schema.rowSize)
    (h : set schema row name value = .ok after) {other : String} (differ : other ≠ name) :
    isNull schema after other = isNull schema row other := by
  unfold isNull
  cases found : schema.slot? other with
  | none => simp only [Schema.slot, found, Checked.error_bind]
  | some slot =>
    rw [Schema.slot_eq_ok.2 found, Checked.ok_bind, Checked.ok_bind,
      (set_other sized whole h found differ).1]

theorem drop_set_null (h : set schema row name none = .ok after) :
    after.drop schema.bitmapSize = row.drop schema.bitmapSize := by
  obtain ⟨slot, found, ⟨-, rfl⟩ | ⟨_, _, isSome, _⟩⟩ := set_eq_ok h
  · exact drop_modify _ (Schema.index_inside found)
  · cases isSome

theorem wrote_of_set (sized : ∀ c ∈ schema.columns, c.Sized) (whole : row.length = schema.rowSize)
    (h : set schema row name value = .ok after) : Wrote schema name value row after where
  length := by rw [length_set sized whole h, whole]
  field := get_set_same sized whole h
  others _ differ := ⟨isNull_set_other sized whole h differ, get_set_other sized whole h differ⟩
  bytes isNone := by
    subst isNone
    exact drop_set_null h

end Row

end RelEngine
