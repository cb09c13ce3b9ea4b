import RelEngine.Proofs.Bytes
import RelEngine.Proofs.Row.Fields
import RelEngine.Schema.Fit

/-!
Rows whose fields have the bytes that are written for values. There is one way to write a value, so such
bytes are read without loss; bytes of any other form are never stored.
-/
namespace RelEngine

/-! ## Fields -/

namespace Column

variable {c : Column} {bytes : Bytes}

/-- The bytes of a value in a field of the column: a boolean is zero or one, and a string has no zero and is
filled up with zeros. -/
def Canonical (c : Column) (bytes : Bytes) : Prop :=
  match c.type with
  | .bool => bytes = [0, 0, 0, 0] ∨ bytes = [1, 0, 0, 0]
  | .int | .float => bytes.length = 4
  | .double => bytes.length = 8
  | .varchar => bytes.length = c.size ∧ ∃ s padding, '\x00' ∉ s.toList ∧
      bytes = Utf8.encode s ++ List.replicate padding 0

theorem canonical_of_encode {scalar : Scalar} (h : Row.encode c scalar = .ok bytes) :
    c.Canonical bytes := by
  rw [Canonical]
  cases type : c.type with
  | bool =>
    cases scalar with
    | bool b =>
      simp only [Row.encode, type, Except.ok.injEq] at h
      subst h
      cases b with
      | false => exact .inl rfl
      | true => exact .inr rfl
    | int | float | double | text => simp [Row.encode, type] at h
  | int =>
    cases scalar with
    | int n =>
      simp only [Row.encode, type, Except.ok.injEq] at h
      subst h
      exact Bytes.length_littleEndian 4 _
    | bool | float | double | text => simp [Row.encode, type] at h
  | float =>
    cases scalar with
    | float x =>
      simp only [Row.encode, type, Except.ok.injEq] at h
      subst h
      exact Bytes.length_littleEndian 4 _
    | bool | int | double | text => simp [Row.encode, type] at h
  | double =>
    cases scalar with
    | double x =>
      simp only [Row.encode, type, Except.ok.injEq] at h
      subst h
      exact Bytes.length_littleEndian 8 _
    | bool | int | float | text => simp [Row.encode, type] at h
  | varchar =>
    cases scalar with
    | text s =>
      simp only [Row.encode, type] at h
      split at h
      · cases h
      split at h
      · cases h
      next fits noZero =>
        cases h
        refine ⟨?_, s, _, fun mem => noZero ?_, rfl⟩
        · rw [List.length_append, List.length_replicate]
          omega
        · exact List.contains_iff_mem.2 (Utf8.zero_mem_encode.2 mem)
    | bool | int | float | double => simp [Row.encode, type] at h

theorem checkText_eq_ok {s : String} (h : c.checkText s = .ok ()) :
    ¬ c.size < (Utf8.encode s).length ∧ '\x00' ∉ s.toList := by
  rw [checkText] at h
  by_cases long : c.size < (Utf8.encode s).length
  · simp only [if_pos long] at h
    cases h
  · by_cases isZero : '\x00' ∈ s.toList
    · simp only [if_neg long, List.contains_iff_mem, if_pos isZero] at h
      cases h
    · exact ⟨long, isZero⟩

/-- Bytes of any four or eight are those of a number, and a string that is stored has room. -/
theorem encode_of_canonical (h : c.Canonical bytes) : ∃ scalar, Row.encode c scalar = .ok bytes := by
  rw [Canonical] at h
  cases type : c.type with
  | bool =>
    rw [type] at h
    rcases h with rfl | rfl
    · exact ⟨.bool false, by simp only [Row.encode, type]; rfl⟩
    · exact ⟨.bool true, by simp only [Row.encode, type]; rfl⟩
  | int =>
    rw [type] at h
    obtain ⟨n, small, rfl⟩ := Bytes.exists_littleEndian h
    have bits : (Row.int32OfBits n).toBitVec.toNat = n := Nat.mod_eq_of_lt small
    exact ⟨.int (Row.int32OfBits n), by simp only [Row.encode, type, bits]⟩
  | float =>
    rw [type] at h
    obtain ⟨n, small, rfl⟩ := Bytes.exists_littleEndian h
    have bits : (Binary.ofBits n : Binary32).bits.toNat = n := Nat.mod_eq_of_lt small
    exact ⟨.float (.ofBits n), by simp only [Row.encode, type, bits]⟩
  | double =>
    rw [type] at h
    obtain ⟨n, small, rfl⟩ := Bytes.exists_littleEndian h
    have bits : (Binary.ofBits n : Binary64).bits.toNat = n := Nat.mod_eq_of_lt small
    exact ⟨.double (.ofBits n), by simp only [Row.encode, type, bits]⟩
  | varchar =>
    rw [type] at h
    obtain ⟨length, s, padding, noZero, rfl⟩ := h
    rw [List.length_append, List.length_replicate] at length
    have fits : ¬ c.size < (Utf8.encode s).length := by omega
    have whole : (Utf8.encode s).contains 0 = false := by
      rw [← Bool.not_eq_true, List.contains_iff_mem, Utf8.zero_mem_encode]
      exact noZero
    refine ⟨.text s, ?_⟩
    simp only [Row.encode, type, if_neg fits, whole, Bool.false_eq_true, if_false]
    rw [← length, Nat.add_sub_cancel_left]

/-- A scalar that was brought to the column's kind can be stored. -/
theorem encode_of_convert {v w : Scalar} (h : c.convert v = .ok w) :
    ∃ bytes, Row.encode c w = .ok bytes := by
  unfold convert at h
  cases type : c.type with
  | bool =>
    have stored : ∀ b, ∃ bytes, Row.encode c (.bool b) = .ok bytes := fun b =>
      ⟨_, by simp only [Row.encode, type]; rfl⟩
    cases v with
    | text s =>
      simp only [type] at h
      cases h
    | bool | int | float | double =>
      simp only [type] at h
      cases h
      exact stored _
  | int =>
    have stored : ∀ n, ∃ bytes, Row.encode c (.int n) = .ok bytes := fun n =>
      ⟨_, by simp only [Row.encode, type]; rfl⟩
    simp only [type] at h
    split at h
    · cases h
      exact stored _
    split at h
    · split at h
      · cases h
      · cases h
        exact stored _
    · cases h
  | float =>
    simp only [type] at h
    split at h
    · split at h
      · cases h
      · cases h
        exact ⟨_, by simp only [Row.encode, type]; rfl⟩
    · cases h
  | double =>
    simp only [type] at h
    split at h
    · cases h
      exact ⟨_, by simp only [Row.encode, type]; rfl⟩
    · cases h
  | varchar =>
    cases v with
    | text s =>
      simp only [type] at h
      obtain ⟨⟨⟩, checked, eq⟩ := Checked.bind_eq_ok.1 h
      cases eq
      obtain ⟨fits, noZero⟩ := checkText_eq_ok checked
      have whole : (Utf8.encode s).contains 0 = false := by
        rw [← Bool.not_eq_true, List.contains_iff_mem, Utf8.zero_mem_encode]
        exact noZero
      exact ⟨_, by simp only [Row.encode, type, if_neg fits, whole]; rfl⟩
    | bool | int | float | double =>
      simp only [type] at h
      cases h

/-- A value that was brought to the column's kind is a scalar that can be stored, or it is NULL and may be. -/
theorem normalize_eq_ok {v w : Value} (h : c.normalize v = .ok w) :
    (w = none → c.nullable = true) ∧ ∀ scalar, w = some scalar → ∃ bytes, Row.encode c scalar = .ok bytes := by
  cases v with
  | none =>
    rw [normalize] at h
    split at h
    · next nullable =>
      cases h
      exact ⟨fun _ => nullable, nofun⟩
    · cases h
  | some v =>
    obtain ⟨scalar, converted, eq⟩ := Checked.bind_eq_ok.1 h
    cases eq
    refine ⟨nofun, ?_⟩
    rintro _ ⟨⟩
    exact encode_of_convert converted

end Column

/-! ## Rows -/

namespace Row

variable {schema : Schema} {row row' : Bytes} {name : String} {value : Value} {isOpen : String → Prop}

/-- The row is laid out by the schema, and its fields hold canonical bytes unless they are NULL. A field that
may not be NULL is so only while it is still to be filled in. -/
structure Sound (schema : Schema) (isOpen : String → Prop) (row : Bytes) : Prop where
  whole : row.length = schema.rowSize
  filled : ∀ {name slot}, schema.slot? name = some slot → slot.column.nullable = false →
    ¬ isOpen name → isNullAt row slot.index = false
  canonical : ∀ {name slot}, schema.slot? name = some slot → isNullAt row slot.index = false →
    slot.column.Canonical (field row slot)

theorem Sound.weaken {isOpen' : String → Prop} (h : Sound schema isOpen row)
    (more : ∀ name slot, schema.slot? name = some slot → slot.column.nullable = false →
      isOpen name → isOpen' name) : Sound schema isOpen' row where
  whole := h.whole
  filled found notNull closed := h.filled found notNull fun o => closed (more _ _ found notNull o)
  canonical := h.canonical

/-- In a row of NULLs everything is still to be filled in. -/
theorem sound_blank (schema : Schema) : Sound schema (fun _ => True) (blank schema) where
  whole := length_blank schema
  filled _ _ closed := absurd trivial closed
  canonical found notNull := by
    rw [blank, isNullAt_allNull (Schema.field_inside found).2.2] at notNull
    cases notNull

/-- A value that the column takes can be written into any row. -/
theorem set_of_normal {c : Column} (isColumn : c ∈ schema.columns) {raw : Value}
    (isNormal : c.normalize raw = .ok value) (row : Bytes) :
    ∃ row', Row.set schema row c.name value = .ok row' := by
  obtain ⟨slot, isSlot, rfl⟩ := Schema.slot?_of_mem isColumn
  rw [Row.set, Schema.slot_eq_ok.2 isSlot, Checked.ok_bind]
  cases value with
  | none => exact ⟨_, rfl⟩
  | some scalar =>
    obtain ⟨bytes, isEncoded⟩ := (Column.normalize_eq_ok isNormal).2 scalar rfl
    simp only [isEncoded]
    exact ⟨_, rfl⟩

/-- A value that the column takes fills in its field. -/
theorem Sound.set (h : Sound schema isOpen row) (sized : ∀ c ∈ schema.columns, c.Sized)
    (isSet : Row.set schema row name value = .ok row')
    (takes : ∀ slot, schema.slot? name = some slot → value = none → slot.column.nullable = true) :
    Sound schema (fun other => isOpen other ∧ other ≠ name) row' where
  whole := length_set sized h.whole isSet
  filled {other slot} found notNull closed := by
    by_cases same : other = name
    · subst same
      have written := set_same found (sized _ (Schema.column_mem found)) h.whole isSet
      rcases written with ⟨isNone, _⟩ | ⟨_, _, notNull', _⟩
      · cases notNull.symm.trans (takes slot found isNone)
      · exact notNull'
    · rw [(set_other sized h.whole isSet found same).1]
      exact h.filled found notNull fun o => closed ⟨o, same⟩
  canonical {other slot} found notNull := by
    by_cases same : other = name
    · subst same
      have written := set_same found (sized _ (Schema.column_mem found)) h.whole isSet
      rcases written with ⟨_, isNull⟩ | ⟨_, _, _, isEncoded⟩
      · cases notNull.symm.trans isNull
      · exact Column.canonical_of_encode isEncoded
    · obtain ⟨bit, bytes⟩ := set_other sized h.whole isSet found same
      rw [bit] at notNull
      rw [bytes]
      exact h.canonical found notNull

end Row

end RelEngine
