import Mathlib.Data.String.Basic
import RelEngine.Proofs.Text.Utf8

/-!
The order of texts. Texts are ordered character by character, and this is the order of their bytes: of two different
characters the one with the lower number has the lower byte at the first place where they differ.
-/
namespace RelEngine.Utf8

/-- The first bytes decide, or else what follows them. -/
theorem cons_lt_cons {m n : Nat} {xs ys : List UInt8} (byte : n < 256) (le : m ≤ n) (behind : m = n → xs < ys) :
    UInt8.ofNat m :: xs < UInt8.ofNat n :: ys := by
  rw [List.cons_lt_cons_iff, UInt8.lt_iff_toNat_lt]
  rcases le.lt_or_eq with lt | rfl
  · rw [toNat_byte byte, toNat_byte (lt.trans byte)]
    exact .inl lt
  · exact .inr ⟨rfl, behind rfl⟩

/-- The bytes of a lower character are lower, whatever follows either. -/
theorem encodeChar_append_lt {c d : Char} (h : c < d) (xs ys : List UInt8) :
    String.utf8EncodeChar c ++ xs < String.utf8EncodeChar d ++ ys := by
  have lt : c.val.toNat < d.val.toNat := UInt32.lt_iff_toNat_lt.1 h
  have top : d.val.toNat < 0xd800 ∨ 0xdfff < d.val.toNat ∧ d.val.toNat < 0x110000 := d.valid
  rw [String.utf8EncodeChar, String.utf8EncodeChar]
  generalize c.val.toNat = v at lt
  generalize d.val.toNat = w at lt top
  -- A longer form has a higher first byte. Forms of one length are compared byte by byte.
  split
  · split_ifs <;> exact cons_lt_cons (by omega) (by omega) fun first => by omega
  split
  · rw [if_neg (by omega)]
    split
    · refine cons_lt_cons (by omega) (by omega) fun first => ?_
      exact cons_lt_cons (by omega) (by omega) fun second => by omega
    · split_ifs <;> exact cons_lt_cons (by omega) (by omega) fun first => by omega
  split
  · rw [if_neg (by omega), if_neg (by omega)]
    split
    · refine cons_lt_cons (by omega) (by omega) fun first => ?_
      refine cons_lt_cons (by omega) (by omega) fun second => ?_
      exact cons_lt_cons (by omega) (by omega) fun third => by omega
    · exact cons_lt_cons (by omega) (by omega) fun first => by omega
  · rw [if_neg (by omega), if_neg (by omega), if_neg (by omega)]
    refine cons_lt_cons (by omega) (by omega) fun first => ?_
    refine cons_lt_cons (by omega) (by omega) fun second => ?_
    refine cons_lt_cons (by omega) (by omega) fun third => ?_
    exact cons_lt_cons (by omega) (by omega) fun fourth => by omega

theorem encode_lt_of_lt {s t : String} (h : s < t) : encode s < encode t := by
  rw [String.lt_iff_toList_lt] at h
  rw [encode, encode]
  generalize s.toList = cs at h ⊢
  generalize t.toList = ds at h ⊢
  induction h with
  | @nil d ds =>
    rw [List.flatMap_cons]
    obtain ⟨b, bs, isBytes⟩ := List.exists_cons_of_ne_nil (String.utf8EncodeChar_ne_nil (c := d))
    rw [isBytes]
    exact List.nil_lt_cons _ _
  | rel lt => exact encodeChar_append_lt lt _ _
  | cons _ ih => exact List.append_left_lt ih

/-- The order of texts is the order of their bytes. -/
theorem encode_lt_iff {s t : String} : encode s < encode t ↔ s < t := by
  refine ⟨fun lt => ?_, encode_lt_of_lt⟩
  rcases lt_trichotomy s t with less | rfl | greater
  · exact less
  · exact absurd lt (List.lt_irrefl _)
  · exact absurd lt (List.lt_asymm (encode_lt_of_lt greater))

end RelEngine.Utf8
