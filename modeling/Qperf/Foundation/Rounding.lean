import Mathlib.Data.Nat.Log
import Mathlib.Data.Nat.Size
import Mathlib.Tactic.Ring
import Mathlib.Tactic.Linarith

/-!
# Round-to-nearest-even on natural numbers

A binary floating-point number with `p` significant bits represents a natural
number exactly when it is a multiple `a * 2 ^ j` with `a ≤ 2 ^ p`.  `roundTo p n`
is the representable number closest to `n`, ties going to the even mantissa.
The exponent range plays no role here: overflow is decided by the caller from
the rounded value.
-/

namespace Qperf.Foundation

/-- `n / 2 ^ k` rounded to the nearest natural number, ties to even. -/
def roundShift (n k : Nat) : Nat :=
  if 2 * (n % 2 ^ k) < 2 ^ k then n / 2 ^ k
  else if 2 ^ k < 2 * (n % 2 ^ k) then n / 2 ^ k + 1
  else if n / 2 ^ k % 2 = 0 then n / 2 ^ k
  else n / 2 ^ k + 1

def droppedBits (p n : Nat) : Nat := n.log2 + 1 - p

def roundTo (p n : Nat) : Nat :=
  roundShift n (droppedBits p n) * 2 ^ droppedBits p n

/--
The integer part of `a / b` rounded to `p` significant bits.  The quotient is
computed with `k` fractional bits and a sticky bit for its remainder, which
decides the rounding as the exact quotient does if it has more than `p` bits.
-/
def truncQuotient (p k a b : Nat) : Nat :=
  let sticky := if a * 2 ^ k % b = 0 then 0 else 1
  roundTo p (2 * (a * 2 ^ k / b) + sticky) / 2 ^ (k + 1)

theorem roundShift_of_dvd {n k : Nat} (h : 2 ^ k ∣ n) :
    roundShift n k = n / 2 ^ k := by
  simp [roundShift, Nat.mod_eq_zero_of_dvd h]

theorem le_roundShift (n k : Nat) : n / 2 ^ k ≤ roundShift n k := by
  simp only [roundShift]
  split
  · exact Nat.le_refl _
  · split
    · exact Nat.le_succ _
    · split
      · exact Nat.le_refl _
      · exact Nat.le_succ _

theorem roundShift_le (n k : Nat) : roundShift n k ≤ n / 2 ^ k + 1 := by
  simp only [roundShift]
  split
  · exact Nat.le_succ _
  · split
    · exact Nat.le_refl _
    · split
      · exact Nat.le_succ _
      · exact Nat.le_refl _

theorem two_mul_roundShift_mul_le (n k : Nat) :
    2 * (roundShift n k * 2 ^ k) ≤ 2 * n + 2 ^ k := by
  have hdiv : 2 ^ k * (n / 2 ^ k) + n % 2 ^ k = n := Nat.div_add_mod n (2 ^ k)
  have hcomm : n / 2 ^ k * 2 ^ k = 2 ^ k * (n / 2 ^ k) := Nat.mul_comm _ _
  simp only [roundShift]
  split
  · omega
  · split
    · rw [Nat.add_mul]
      omega
    · split
      · omega
      · rw [Nat.add_mul]
        omega

theorem lt_roundShift {n k q : Nat} (h : (2 * q + 1) * 2 ^ k < 2 * n) :
    q < roundShift n k := by
  have hdiv : 2 ^ k * (n / 2 ^ k) + n % 2 ^ k = n := Nat.div_add_mod n (2 ^ k)
  rcases Nat.lt_trichotomy (n / 2 ^ k) q with hlt | heq | hgt
  · have hmul : 2 ^ k * (n / 2 ^ k + 1) ≤ 2 ^ k * q := Nat.mul_le_mul_left _ hlt
    rw [Nat.mul_add] at hmul
    rw [Nat.add_mul, Nat.mul_assoc, Nat.mul_comm q] at h
    omega
  · rw [Nat.add_mul, Nat.mul_assoc, Nat.mul_comm q, ← heq] at h
    simp only [roundShift]
    split
    · omega
    · split <;> omega
  · exact Nat.lt_of_lt_of_le hgt (le_roundShift n k)

theorem roundShift_le_of_even {n k q : Nat} (heven : q % 2 = 0)
    (h : 2 * n ≤ (2 * q + 1) * 2 ^ k) : roundShift n k ≤ q := by
  have hdiv : 2 ^ k * (n / 2 ^ k) + n % 2 ^ k = n := Nat.div_add_mod n (2 ^ k)
  rcases Nat.lt_trichotomy (n / 2 ^ k) q with hlt | heq | hgt
  · exact Nat.le_trans (roundShift_le n k) hlt
  · rw [Nat.add_mul, Nat.mul_assoc, Nat.mul_comm q, ← heq] at h
    simp only [roundShift]
    split
    · omega
    · split
      · omega
      · split <;> omega
  · have hmul : 2 ^ k * (q + 1) ≤ 2 ^ k * (n / 2 ^ k) := Nat.mul_le_mul_left _ hgt
    rw [Nat.mul_add] at hmul
    rw [Nat.add_mul, Nat.mul_assoc, Nat.mul_comm q] at h
    omega

theorem lt_two_pow_droppedBits (p n : Nat) : n < 2 ^ (p + droppedBits p n) := by
  have hlog : n < 2 ^ (n.log2 + 1) := Nat.lt_log2_self
  refine Nat.lt_of_lt_of_le hlog (Nat.pow_le_pow_right (by decide) ?_)
  simp only [droppedBits]
  omega

section Precision

variable {p : Nat} (hp : 0 < p)
include hp

theorem droppedBits_le {n a : Nat} (h : n < 2 ^ (p + a)) : droppedBits p n ≤ a := by
  simp only [droppedBits]
  by_cases hn : n = 0
  · subst hn
    simp only [Nat.log2_zero]
    omega
  · have hlog : n.log2 < p + a := (Nat.log2_lt hn).mpr h
    omega

theorem roundTo_of_dvd {n j : Nat} (hdvd : 2 ^ j ∣ n) (hle : n ≤ 2 ^ (p + j)) :
    roundTo p n = n := by
  have hdropped : 2 ^ droppedBits p n ∣ n := by
    rcases Nat.lt_or_eq_of_le hle with hlt | heq
    · exact (Nat.pow_dvd_pow 2 (droppedBits_le hp hlt)).trans hdvd
    · subst heq
      refine Nat.pow_dvd_pow 2 ?_
      simp only [droppedBits, Nat.log2_two_pow]
      omega
  rw [roundTo, roundShift_of_dvd hdropped, Nat.div_mul_cancel hdropped]

theorem roundTo_of_le {n : Nat} (h : n ≤ 2 ^ p) : roundTo p n = n :=
  roundTo_of_dvd hp (j := 0) (by simp) h

theorem roundTo_le_two_pow {n a : Nat} (h : n ≤ 2 ^ (p + a)) :
    roundTo p n ≤ 2 ^ (p + a) := by
  rcases Nat.lt_or_eq_of_le h with hlt | heq
  · have hk : droppedBits p n ≤ a := droppedBits_le hp hlt
    have hsplit : 2 ^ (p + a) = 2 ^ (p + a - droppedBits p n) * 2 ^ droppedBits p n := by
      rw [← Nat.pow_add]
      congr 1
      omega
    have hq : n / 2 ^ droppedBits p n < 2 ^ (p + a - droppedBits p n) := by
      rw [Nat.div_lt_iff_lt_mul (Nat.two_pow_pos _), ← hsplit]
      exact hlt
    rw [roundTo, hsplit]
    exact Nat.mul_le_mul_right _ (Nat.le_trans (roundShift_le _ _) hq)
  · subst heq
    rw [roundTo_of_dvd hp (j := a) (Nat.pow_dvd_pow 2 (by omega)) h]

theorem roundTo_idem (n : Nat) : roundTo p (roundTo p n) = roundTo p n := by
  refine roundTo_of_dvd hp (j := droppedBits p n) (Nat.dvd_mul_left _ _) ?_
  exact roundTo_le_two_pow hp (Nat.le_of_lt (lt_two_pow_droppedBits p n))

theorem roundTo_le_add {n a : Nat} (h : n < 2 ^ (p + (a + 1))) :
    roundTo p n ≤ n + 2 ^ a := by
  have hk : droppedBits p n ≤ a + 1 := droppedBits_le hp h
  have hulp : 2 ^ droppedBits p n ≤ 2 ^ (a + 1) := Nat.pow_le_pow_right (by decide) hk
  have hround := two_mul_roundShift_mul_le n (droppedBits p n)
  simp only [roundTo]
  omega

theorem two_pow_le_roundTo {n a : Nat} (ha : p ≤ a + 1) (h : 2 ^ a ≤ n) :
    2 ^ a ≤ roundTo p n := by
  have hlog : a ≤ n.log2 := (Nat.le_log2 (by
    have := Nat.two_pow_pos a
    omega)).mpr h
  have hq : 2 ^ (p - 1) ≤ n / 2 ^ droppedBits p n := by
    rw [Nat.le_div_iff_mul_le (Nat.two_pow_pos _), ← Nat.pow_add]
    refine Nat.le_trans (Nat.pow_le_pow_right (by decide) ?_)
      (Nat.log2_self_le (by
        have := Nat.two_pow_pos a
        omega))
    simp only [droppedBits]
    omega
  calc 2 ^ a ≤ 2 ^ (p - 1 + droppedBits p n) := by
        refine Nat.pow_le_pow_right (by decide) ?_
        simp only [droppedBits]
        omega
    _ = 2 ^ (p - 1) * 2 ^ droppedBits p n := Nat.pow_add ..
    _ ≤ roundTo p n := Nat.mul_le_mul_right _
        (Nat.le_trans hq (le_roundShift _ _))

theorem truncQuotient_le {k a m : Nat} (ha : a ≤ 2 ^ m) (hm : p ≤ k + 1 + m)
    (b : Nat) : truncQuotient p k a b ≤ 2 ^ m := by
  have hdividend : a * 2 ^ k ≤ 2 ^ m * 2 ^ k := Nat.mul_le_mul_right _ ha
  have hdiv : b * (a * 2 ^ k / b) + a * 2 ^ k % b = a * 2 ^ k := Nat.div_add_mod ..
  have hquotient : a * 2 ^ k / b ≤ b * (a * 2 ^ k / b) := by
    rcases Nat.eq_zero_or_pos b with rfl | hb
    · simp
    · exact Nat.le_mul_of_pos_left _ hb
  have hpow : 2 ^ (p + (k + 1 + m - p)) = 2 * (2 ^ m * 2 ^ k) := by
    rw [Nat.add_sub_cancel' hm, ← Nat.pow_add, ← Nat.pow_succ']
    congr 1
    omega
  have hround : roundTo p (2 * (a * 2 ^ k / b) +
      if a * 2 ^ k % b = 0 then 0 else 1) ≤ 2 * (2 ^ m * 2 ^ k) := by
    rw [← hpow]
    apply roundTo_le_two_pow hp
    split <;> omega
  apply Nat.div_le_of_le_mul
  calc _ ≤ 2 * (2 ^ m * 2 ^ k) := hround
    _ = 2 ^ (k + 1) * 2 ^ m := by rw [Nat.pow_succ]; ring

end Precision

end Qperf.Foundation
