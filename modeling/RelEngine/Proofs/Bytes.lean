import RelEngine.Bytes

/-!
Numbers in a fixed count of bytes: what is written is read again, and any bytes are those of a number.
-/
namespace RelEngine.Bytes

/-- Any bytes are those of a number. -/
theorem exists_littleEndian {bytes : Bytes} {count : Nat} (h : bytes.length = count) :
    ∃ n, n < Nat.pow 256 count ∧ littleEndian count n = bytes := by
  induction bytes generalizing count with
  | nil =>
    subst h
    exact ⟨0, Nat.zero_lt_one, rfl⟩
  | cons b bytes ih =>
    subst h
    obtain ⟨n, small, rest⟩ := ih rfl
    have below := b.toNat_lt
    have low : UInt8.ofNat (b.toNat + 256 * n) = b := by
      apply UInt8.toNat_inj.1
      rw [UInt8.toNat_ofNat']
      omega
    have high : (b.toNat + 256 * n) / 256 = n := by omega
    refine ⟨b.toNat + 256 * n, ?_, ?_⟩
    · change _ < Nat.pow 256 bytes.length * 256
      omega
    · rw [List.length_cons, littleEndian, low, high, rest]

theorem exists_bigEndian {bytes : Bytes} {count : Nat} (h : bytes.length = count) :
    ∃ n, n < Nat.pow 256 count ∧ bigEndian count n = bytes := by
  have reversed : bytes.reverse.length = count := List.length_reverse.trans h
  obtain ⟨n, small, same⟩ := exists_littleEndian reversed
  exact ⟨n, small, by rw [bigEndian, same, List.reverse_reverse]⟩

theorem ofBigEndian_bigEndian {count n : Nat} (h : n < Nat.pow 256 count) :
    ofBigEndian (bigEndian count n) = n := by
  rw [ofBigEndian, bigEndian, List.reverse_reverse, ofLittleEndian_littleEndian h]

theorem length_bigEndian (count n : Nat) : (bigEndian count n).length = count := by
  rw [bigEndian, List.length_reverse, length_littleEndian]

end RelEngine.Bytes
