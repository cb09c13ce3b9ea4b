import RelEngine.Row

/-!
Null bits: setting or clearing one changes no other bit of the row.
-/
namespace RelEngine.Row

theorem toBitVec_nullMask (index : Nat) :
    (nullMask index).toBitVec = BitVec.twoPow 8 (index % 8) := by
  have all : ∀ k < 8, ((1 : UInt8) <<< UInt8.ofNat k).toBitVec = BitVec.twoPow 8 k := by decide
  exact all _ (Nat.mod_lt _ (by decide))

/-- A column is NULL if its bit is set. -/
theorem isNullAt_eq (row : Bytes) (index : Nat) :
    isNullAt row index = (row.getD (index / 8) 0).toBitVec.getLsbD (index % 8) := by
  have below : index % 8 < 8 := Nat.mod_lt _ (by decide)
  have notZero : BitVec.twoPow 8 (index % 8) ≠ 0#8 := by
    intro eq
    have bit := BitVec.getLsbD_twoPow (w := 8) (index % 8) (index % 8)
    rw [eq] at bit
    simp [below] at bit
  have same : isNullAt row index =
      ((row.getD (index / 8) 0).toBitVec &&& BitVec.twoPow 8 (index % 8) != 0#8) := by
    rw [isNullAt, ← toBitVec_nullMask, ← UInt8.toBitVec_and, Bool.eq_iff_iff, bne_iff_ne, bne_iff_ne,
      ne_eq, ne_eq, ← UInt8.toBitVec_inj]
    rfl
  rw [same, BitVec.and_twoPow]
  cases (row.getD (index / 8) 0).toBitVec.getLsbD (index % 8) with
  | true => rw [if_pos rfl, bne_iff_ne]; exact notZero
  | false => simp

theorem getD_modify {α : Type} (l : List α) (i j : Nat) (f : α → α) (a : α) :
    (l.modify i f).getD j a = if i = j ∧ j < l.length then f (l.getD j a) else l.getD j a := by
  rw [List.getD_eq_getElem?_getD, List.getElem?_modify, List.getD_eq_getElem?_getD]
  by_cases inside : j < l.length
  · rw [List.getElem?_eq_getElem inside]
    by_cases same : i = j
    · simp [same, inside]
    · simp [same]
  · rw [List.getElem?_eq_none (Nat.le_of_not_lt inside)]
    simp [inside]

theorem same_index_iff {i j : Nat} : i = j ↔ i / 8 = j / 8 ∧ i % 8 = j % 8 := by
  omega

theorem isNullAt_markNull {row : Bytes} {i : Nat} (inside : i / 8 < row.length) (j : Nat) :
    isNullAt (markNull row i) j = (decide (i = j) || isNullAt row j) := by
  rw [isNullAt_eq, isNullAt_eq, markNull, getD_modify]
  by_cases byte : i / 8 = j / 8
  · have below : i % 8 < 8 := Nat.mod_lt _ (by decide)
    rw [if_pos ⟨byte, byte ▸ inside⟩, UInt8.toBitVec_or, BitVec.getLsbD_or, toBitVec_nullMask,
      BitVec.getLsbD_twoPow, Bool.or_comm, decide_eq_true below, Bool.true_and]
    congr 1
    rw [decide_eq_decide, same_index_iff (i := i)]
    exact ⟨fun bit => ⟨byte, bit⟩, fun same => same.2⟩
  · have differ : i ≠ j := fun eq => byte (eq ▸ rfl)
    rw [if_neg fun h => byte h.1, decide_eq_false differ, Bool.false_or]

theorem isNullAt_clearNull (row : Bytes) (i j : Nat) :
    isNullAt (clearNull row i) j = (!decide (i = j) && isNullAt row j) := by
  rw [isNullAt_eq, isNullAt_eq, clearNull, getD_modify]
  by_cases byte : i / 8 = j / 8
  · have below : i % 8 < 8 := Nat.mod_lt _ (by decide)
    have below' : j % 8 < 8 := Nat.mod_lt _ (by decide)
    by_cases inside : j / 8 < row.length
    · rw [if_pos ⟨byte, inside⟩, UInt8.toBitVec_and, BitVec.getLsbD_and, UInt8.toBitVec_not,
        BitVec.getLsbD_not, toBitVec_nullMask, BitVec.getLsbD_twoPow, Bool.and_comm,
        decide_eq_true below, decide_eq_true below', Bool.true_and, Bool.true_and]
      congr 2
      rw [decide_eq_decide, same_index_iff (i := i)]
      exact ⟨fun bit => ⟨byte, bit⟩, fun same => same.2⟩
    · rw [if_neg fun h => inside h.2, List.getD_eq_getElem?_getD,
        List.getElem?_eq_none (Nat.le_of_not_lt inside)]
      simp
  · have differ : i ≠ j := fun eq => byte (eq ▸ rfl)
    rw [if_neg fun h => byte h.1, decide_eq_false differ, Bool.not_false, Bool.true_and]

/-- In a blank row the bits of all columns are set. -/
theorem isNullAt_allNull {n i : Nat} (h : i < n) (rest : Bytes) :
    isNullAt (allNull n ++ rest) i = true := by
  have inside : i / 8 < (n + 7) / 8 := by omega
  have below : i % 8 < 8 := Nat.mod_lt _ (by decide)
  have byte : (allNull n ++ rest).getD (i / 8) 0 =
      UInt8.ofNat (Nat.pow 2 (min 8 (n - 8 * (i / 8))) - 1) := by
    rw [List.getD_eq_getElem?_getD, allNull, List.getElem?_append_left (by simpa using inside),
      List.getElem?_map, List.getElem?_range inside]
    rfl
  rw [isNullAt_eq, byte, UInt8.toBitVec_ofNat', BitVec.getLsbD_ofNat, decide_eq_true below,
    Bool.true_and]
  change (2 ^ (min 8 (n - 8 * (i / 8))) - 1).testBit (i % 8) = true
  rw [Nat.testBit_two_pow_sub_one, decide_eq_true_eq]
  omega

end RelEngine.Row
