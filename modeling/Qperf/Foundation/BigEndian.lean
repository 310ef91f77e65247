import Mathlib.Tactic.Ring

/-!
# Big-endian numbers

`bigEndian n i` are the `n` low bytes of `i`, the highest one first, and
`ofBigEndian` reads them again.
-/

namespace Qperf.Foundation

def bigEndian : Nat → Nat → List UInt8
  | 0, _ => []
  | n + 1, i => UInt8.ofNat (i >>> (8 * n)) :: bigEndian n i

def ofBigEndian : List UInt8 → Nat
  | [] => 0
  | b :: bytes => b.toNat * 256 ^ bytes.length + ofBigEndian bytes

@[simp] theorem length_bigEndian (n i : Nat) : (bigEndian n i).length = n := by
  induction n with
  | zero => rfl
  | succ n ih => simp [bigEndian, ih]

theorem ofBigEndian_bigEndian (n i : Nat) :
    ofBigEndian (bigEndian n i) = i % 256 ^ n := by
  induction n with
  | zero => simp [bigEndian, ofBigEndian, Nat.mod_one]
  | succ n ih =>
    have hbyte : (UInt8.ofNat (i >>> (8 * n))).toNat = i / 256 ^ n % 256 := by
      rw [UInt8.toNat_ofNat', Nat.shiftRight_eq_div_pow, Nat.pow_mul]
    rw [bigEndian, ofBigEndian, ih, hbyte, length_bigEndian, Nat.mul_comm,
      Nat.pow_succ, Nat.mod_mul, Nat.add_comm]

end Qperf.Foundation
