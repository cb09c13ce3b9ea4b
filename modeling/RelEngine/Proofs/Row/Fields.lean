import RelEngine.Proofs.Checked
import RelEngine.Proofs.Row.Bits
import RelEngine.Proofs.Schema
import RelEngine.Proofs.Text.Utf8

/-!
Fields of packed rows: what is written into one is read from it again, and the others keep their values.
-/
namespace RelEngine

/-! ## Bytes -/

namespace Bytes

variable {bytes patch : Bytes} {offset : Nat}

theorem getElem?_overwrite (h : offset + patch.length ≤ bytes.length) (i : Nat) :
    (overwrite bytes offset patch)[i]? =
      if i < offset then bytes[i]?
      else if i < offset + patch.length then patch[i - offset]? else bytes[i]? := by
  have start : (bytes.take offset).length = offset := List.length_take_of_le (by omega)
  rw [overwrite, List.append_assoc]
  split
  · next before =>
    rw [List.getElem?_append_left (by rw [start]; exact before), List.getElem?_take, if_pos before]
  · next notBefore =>
    rw [List.getElem?_append_right (by rw [start]; omega), start]
    split
    · next within => rw [List.getElem?_append_left (by omega)]
    · next beyond =>
      rw [List.getElem?_append_right (by omega), List.getElem?_drop]
      congr 1
      omega

/-- The written bytes. -/
theorem slice_overwrite (h : offset + patch.length ≤ bytes.length) :
    ((overwrite bytes offset patch).drop offset).take patch.length = patch := by
  refine List.ext_getElem? fun i => ?_
  rw [List.getElem?_take, List.getElem?_drop, getElem?_overwrite h]
  by_cases inside : i < patch.length
  · rw [if_pos inside, if_neg (by omega), if_pos (by omega)]
    congr 1
    omega
  · rw [if_neg inside, List.getElem?_eq_none (Nat.le_of_not_lt inside)]

/-- Bytes before or behind the written ones. -/
theorem slice_overwrite_of_disjoint {start count : Nat}
    (h : offset + patch.length ≤ bytes.length)
    (disjoint : start + count ≤ offset ∨ offset + patch.length ≤ start) :
    ((overwrite bytes offset patch).drop start).take count = (bytes.drop start).take count := by
  refine List.ext_getElem? fun i => ?_
  rw [List.getElem?_take, List.getElem?_take, List.getElem?_drop, List.getElem?_drop,
    getElem?_overwrite h]
  by_cases inside : i < count
  · rw [if_pos inside, if_pos inside]
    rcases disjoint with before | behind
    · rw [if_pos (by omega)]
    · rw [if_neg (by omega), if_neg (by omega)]
  · rw [if_neg inside, if_neg inside]

theorem getD_overwrite_of_lt {i : Nat} (h : offset + patch.length ≤ bytes.length)
    (before : i < offset) : (overwrite bytes offset patch).getD i 0 = bytes.getD i 0 := by
  rw [List.getD_eq_getElem?_getD, List.getD_eq_getElem?_getD, getElem?_overwrite h, if_pos before]

end Bytes

namespace Row

variable {schema : Schema} {row row' : Bytes} {name other : String} {slot : Slot}

/-! ## Encodings -/

theorem encode_spec {column : Column} (sized : column.Sized) {scalar : Scalar} {bytes : Bytes}
    (h : encode column scalar = .ok bytes) :
    bytes.length = column.size ∧ decode column.type bytes = scalar := by
  have four : ∀ n, (Bytes.littleEndian 4 n).take 4 = Bytes.littleEndian 4 n := fun n =>
    List.take_of_length_le (Nat.le_of_eq (Bytes.length_littleEndian 4 n))
  have eight : ∀ n, (Bytes.littleEndian 8 n).take 8 = Bytes.littleEndian 8 n := fun n =>
    List.take_of_length_le (Nat.le_of_eq (Bytes.length_littleEndian 8 n))
  cases type : column.type with
  | bool =>
    cases scalar with
    | bool b =>
      simp only [encode, type, Except.ok.injEq] at h
      subst h
      refine ⟨?_, ?_⟩
      · rw [Bytes.length_littleEndian, sized 4 (by rw [type]; rfl)]
      · rw [decode, four, Bytes.ofLittleEndian_littleEndian (by cases b <;> decide)]
        cases b <;> rfl
    | int | float | double | text => simp [encode, type] at h
  | int =>
    cases scalar with
    | int n =>
      simp only [encode, type, Except.ok.injEq] at h
      subst h
      refine ⟨?_, ?_⟩
      · rw [Bytes.length_littleEndian, sized 4 (by rw [type]; rfl)]
      · rw [decode, four, Bytes.ofLittleEndian_littleEndian n.toBitVec.isLt, int32OfBits,
          BitVec.ofNat_toNat, BitVec.setWidth_eq, Int32.ofBitVec_toBitVec]
    | bool | float | double | text => simp [encode, type] at h
  | float =>
    cases scalar with
    | float x =>
      simp only [encode, type, Except.ok.injEq] at h
      subst h
      refine ⟨?_, ?_⟩
      · rw [Bytes.length_littleEndian, sized 4 (by rw [type]; rfl)]
      · have below : x.bits.toNat < Nat.pow 256 4 := x.bits.isLt
        rw [decode, four, Bytes.ofLittleEndian_littleEndian below, Binary.ofBits,
          BitVec.ofNat_toNat, BitVec.setWidth_eq]
    | bool | int | double | text => simp [encode, type] at h
  | double =>
    cases scalar with
    | double x =>
      simp only [encode, type, Except.ok.injEq] at h
      subst h
      refine ⟨?_, ?_⟩
      · rw [Bytes.length_littleEndian, sized 8 (by rw [type]; rfl)]
      · have below : x.bits.toNat < Nat.pow 256 8 := x.bits.isLt
        rw [decode, eight, Bytes.ofLittleEndian_littleEndian below, Binary.ofBits,
          BitVec.ofNat_toNat, BitVec.setWidth_eq]
    | bool | int | float | text => simp [encode, type] at h
  | varchar =>
    cases scalar with
    | text s =>
      simp only [encode, type] at h
      split at h
      · exact nomatch h
      split at h
      · exact nomatch h
      next fits noZero =>
        cases h
        refine ⟨by simp; omega, ?_⟩
        have kept : ∀ b ∈ Utf8.encode s, (b != 0) = true := fun b mem => by
          rw [bne_iff_ne]
          exact fun eq => noZero (List.contains_iff_mem.2 (eq ▸ mem))
        have cut : (List.replicate (column.size - (Utf8.encode s).length) (0 : UInt8)).takeWhile
            (· != 0) = [] := by
          simp
        rw [decode, List.takeWhile_append_of_pos kept, cut, List.append_nil,
          Utf8.decodeLenient_encode]
    | bool | int | float | double => simp [encode, type] at h

/-! ## Changed rows -/

/-- The bytes of a field. -/
def field (row : Bytes) (slot : Slot) : Bytes := (row.drop slot.offset).take slot.column.size

theorem read_eq (h : schema.slot? name = some slot) : get schema row name = .ok (read row slot) := by
  rw [get, Schema.slot_eq_ok.2 h]
  rfl

theorem length_markNull (row : Bytes) (i : Nat) : (markNull row i).length = row.length :=
  List.length_modify _ _ _

theorem length_clearNull (row : Bytes) (i : Nat) : (clearNull row i).length = row.length :=
  List.length_modify _ _ _

/-- A change of the null bits leaves all fields as they are. -/
theorem drop_modify {row : Bytes} {i start : Nat} (f : UInt8 → UInt8) (before : i < start) :
    (row.modify i f).drop start = row.drop start :=
  List.drop_modify_of_lt f i start row before

/-- The two ways in which a write changes a row. -/
theorem set_eq_ok {value : Value} (h : set schema row name value = .ok row') :
    ∃ slot, schema.slot? name = some slot ∧
      (value = none ∧ row' = markNull row slot.index ∨
        ∃ scalar bytes, value = some scalar ∧ encode slot.column scalar = .ok bytes ∧
          row' = clearNull (Bytes.overwrite row slot.offset bytes) slot.index) := by
  obtain ⟨slot, isSlot, h⟩ := Checked.bind_eq_ok.1 h
  refine ⟨slot, Schema.slot_eq_ok.1 isSlot, ?_⟩
  cases value with
  | none => exact .inl ⟨rfl, (Except.ok.inj h).symm⟩
  | some scalar =>
    obtain ⟨bytes, isEncoded, eq⟩ := Checked.bind_eq_ok.1 h
    exact .inr ⟨scalar, bytes, rfl, isEncoded, (Except.ok.inj eq).symm⟩

/-! ### The field that is written -/

section Field

variable (found : schema.slot? name = some slot) (sized : slot.column.Sized)
  (whole : row.length = schema.rowSize)
include found sized whole

theorem bytes_inside {scalar : Scalar} {bytes : Bytes}
    (isEncoded : encode slot.column scalar = .ok bytes) :
    slot.offset + bytes.length ≤ row.length := by
  rw [(encode_spec sized isEncoded).1, whole]
  exact (Schema.field_inside found).1

/-- What is in a field that was written. -/
theorem set_same {value : Value} (h : set schema row name value = .ok row') :
    value = none ∧ isNullAt row' slot.index = true ∨ ∃ scalar, value = some scalar ∧
      isNullAt row' slot.index = false ∧ encode slot.column scalar = .ok (field row' slot) := by
  obtain ⟨slot', found', change⟩ := set_eq_ok h
  cases found.symm.trans found'
  rcases change with ⟨rfl, rfl⟩ | ⟨scalar, bytes, rfl, isEncoded, rfl⟩
  · have inside : slot.index / 8 < row.length := by
      rw [whole, Schema.rowSize]
      exact Nat.lt_of_lt_of_le (Schema.index_inside found) (Nat.le_add_right _ _)
    left
    rw [isNullAt_markNull inside, decide_eq_true rfl, Bool.true_or]
    exact ⟨rfl, rfl⟩
  · have length := (encode_spec sized isEncoded).1
    have before : slot.index / 8 < slot.offset :=
      Nat.lt_of_lt_of_le (Schema.index_inside found) (Schema.field_inside found).2.1
    refine .inr ⟨scalar, rfl, ?_, ?_⟩
    · rw [isNullAt_clearNull, decide_eq_true rfl, Bool.not_true, Bool.false_and]
    · rw [field, clearNull, drop_modify _ before, ← length,
        Bytes.slice_overwrite (bytes_inside found sized whole isEncoded)]
      exact isEncoded

/-- A value that was written is read again, whatever the other columns are. -/
theorem get_set {value : Value} (h : set schema row name value = .ok row') :
    get schema row' name = .ok value := by
  rw [read_eq found, read]
  rcases set_same found sized whole h with ⟨rfl, isNull⟩ | ⟨scalar, rfl, notNull, isEncoded⟩
  · rw [isNull, if_pos rfl]
  · have decoded := (encode_spec sized isEncoded).2
    rw [field] at decoded
    rw [notNull, if_neg Bool.false_ne_true, decoded]

end Field

/-! ### The whole row -/

section Sized

variable (sized : ∀ c ∈ schema.columns, c.Sized) (whole : row.length = schema.rowSize)
include sized whole

theorem length_set {value : Value} (h : set schema row name value = .ok row') :
    row'.length = schema.rowSize := by
  obtain ⟨slot, found, ⟨rfl, rfl⟩ | ⟨scalar, bytes, rfl, isEncoded, rfl⟩⟩ := set_eq_ok h
  · rw [length_markNull, whole]
  · have inside := bytes_inside found (sized _ (Schema.column_mem found)) whole isEncoded
    rw [length_clearNull, Bytes.length_overwrite inside, whole]

/-- A write leaves the other fields as they are. -/
theorem set_other {value : Value} (h : set schema row name value = .ok row')
    (found : schema.slot? other = some slot) (differ : other ≠ name) :
    isNullAt row' slot.index = isNullAt row slot.index ∧ field row' slot = field row slot := by
  obtain ⟨slot', found', change⟩ := set_eq_ok h
  have otherIndex := Schema.index_ne found' found differ.symm
  have before : slot'.index / 8 < slot.offset :=
    Nat.lt_of_lt_of_le (Schema.index_inside found') (Schema.field_inside found).2.1
  rw [field, field]
  rcases change with ⟨rfl, rfl⟩ | ⟨scalar, bytes, rfl, isEncoded, rfl⟩
  · have inside : slot'.index / 8 < row.length := by
      rw [whole, Schema.rowSize]
      exact Nat.lt_of_lt_of_le (Schema.index_inside found') (Nat.le_add_right _ _)
    rw [isNullAt_markNull inside, decide_eq_false otherIndex, Bool.false_or, markNull,
      drop_modify _ before]
    exact ⟨rfl, rfl⟩
  · have sized' := sized _ (Schema.column_mem found')
    have fits := bytes_inside found' sized' whole isEncoded
    have bit : isNullAt (Bytes.overwrite row slot'.offset bytes) slot.index =
        isNullAt row slot.index := by
      rw [isNullAt_eq, isNullAt_eq, Bytes.getD_overwrite_of_lt fits
        (Nat.lt_of_lt_of_le (Schema.index_inside found) (Schema.field_inside found').2.1)]
    have disjoint := Schema.fields_disjoint found found' differ
    rw [← (encode_spec sized' isEncoded).1] at disjoint
    rw [isNullAt_clearNull, decide_eq_false otherIndex, Bool.not_false, Bool.true_and, bit,
      clearNull, drop_modify _ before, Bytes.slice_overwrite_of_disjoint fits disjoint]
    exact ⟨rfl, rfl⟩

/-- A value that was written is read again. -/
theorem get_set_same {value : Value} (h : set schema row name value = .ok row') :
    get schema row' name = .ok value := by
  obtain ⟨slot, found, _⟩ := set_eq_ok h
  exact get_set found (sized _ (Schema.column_mem found)) whole h

theorem get_set_other {value : Value} (h : set schema row name value = .ok row')
    (differ : other ≠ name) : get schema row' other = get schema row other := by
  cases found : schema.slot? other with
  | none => simp only [get, Schema.slot, found, Checked.error_bind]
  | some slot =>
    obtain ⟨bit, bytes⟩ := set_other sized whole h found differ
    rw [field, field] at bytes
    rw [read_eq found, read_eq found, read, read, bit, bytes]

end Sized

/-! ## Blank rows -/

theorem length_blank (schema : Schema) : (blank schema).length = schema.rowSize := by
  rw [blank, List.length_append, List.length_replicate, allNull, List.length_map, List.length_range]
  rfl

theorem get_blank (h : schema.slot? name = some slot) :
    get schema (blank schema) name = .ok none := by
  rw [read_eq h, read, blank, isNullAt_allNull (Schema.field_inside h).2.2, if_pos rfl]

end Row

end RelEngine
