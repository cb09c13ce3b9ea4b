/-!
Byte sequences, and whole numbers written in a fixed count of bytes.
-/
namespace RelEngine

abbrev Bytes := List UInt8

namespace Bytes

/-- The low `count` bytes of a number, least significant first. -/
def littleEndian : (count : Nat) → (n : Nat) → Bytes
  | 0, _ => []
  | count + 1, n => UInt8.ofNat n :: littleEndian count (n / 256)

def bigEndian (count n : Nat) : Bytes := (littleEndian count n).reverse

def ofLittleEndian : Bytes → Nat
  | [] => 0
  | b :: bs => b.toNat + 256 * ofLittleEndian bs

def ofBigEndian (bytes : Bytes) : Nat := ofLittleEndian bytes.reverse

/-- The sequence with `patch` written over it from `offset` on. -/
def overwrite (bytes : Bytes) (offset : Nat) (patch : Bytes) : Bytes :=
  bytes.take offset ++ patch ++ bytes.drop (offset + patch.length)

theorem length_littleEndian (count n : Nat) : (littleEndian count n).length = count := by
  induction count generalizing n with
  | zero => rfl
  | succ count ih => simp [littleEndian, ih]

theorem ofLittleEndian_littleEndian {count n : Nat} (h : n < Nat.pow 256 count) :
    ofLittleEndian (littleEndian count n) = n := by
  induction count generalizing n with
  | zero =>
    have : n < 1 := h
    simp [littleEndian, ofLittleEndian]
    omega
  | succ count ih =>
    have below : n < Nat.pow 256 count * 256 := h
    have rest : n / 256 < Nat.pow 256 count := Nat.div_lt_of_lt_mul (Nat.mul_comm _ _ ▸ below)
    simp [littleEndian, ofLittleEndian, ih rest]
    omega

theorem length_overwrite {bytes patch : Bytes} {offset : Nat}
    (h : offset + patch.length ≤ bytes.length) :
    (overwrite bytes offset patch).length = bytes.length := by
  simp [overwrite]; omega

end Bytes

end RelEngine
