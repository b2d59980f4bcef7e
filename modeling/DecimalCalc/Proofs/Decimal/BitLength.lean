import DecimalCalc.Decimal.Division
import Mathlib.Algebra.Order.Ring.Nat
import Mathlib.Tactic.Ring
/-!
# Bits and digits

The bit length of a coefficient bounds it from both sides by powers of two.  The estimates
of roots and of the size of powers count the digits of a number by its bits, with a decimal
fraction near the logarithm of two.  How far they can be off is read off one comparison of
powers with large exponents, which `pow_le_mul_pow` carries over to all exponents.
-/

namespace DecimalCalc.Decimal

theorem natAbs_lt_two_pow_bitLength (a : Decimal) :
    a.coefficient.natAbs < 2 ^ a.bitLength := by
  unfold bitLength
  split
  · next hzero =>
      rw [hzero]
      decide
  · exact Nat.lt_log2_self

theorem two_pow_bitLength_le {a : Decimal} (h : a.coefficient ≠ 0) :
    2 ^ a.bitLength ≤ 2 * a.coefficient.natAbs := by
  have hle := Nat.log2_self_le (Int.natAbs_ne_zero.mpr h)
  rw [bitLength, if_neg h, Nat.pow_succ]
  omega

/-- A comparison of two powers, up to the factor `q / q'`, is one of all powers with
exponents in the same ratio, up to that factor to the power `b / p`. -/
theorem pow_le_mul_pow {x y u q q' m b s p : ℕ} (hp : p ≠ 0) (hx : 0 < x) (hq' : 0 < q')
    (hm : m * p ≤ s * b) (h : q' * x ^ s ≤ q * y ^ p) (hq : q ^ b ≤ u ^ p * q' ^ b) :
    x ^ m ≤ u * y ^ b := by
  refine (Nat.pow_le_pow_iff_left hp).mp
    (Nat.le_of_mul_le_mul_left ?_ (Nat.pow_pos (n := b) hq'))
  calc q' ^ b * (x ^ m) ^ p = q' ^ b * x ^ (m * p) := by rw [pow_mul]
    _ ≤ q' ^ b * x ^ (s * b) := Nat.mul_le_mul_left _ (Nat.pow_le_pow_right hx hm)
    _ = (q' * x ^ s) ^ b := by rw [mul_pow, pow_mul]
    _ ≤ (q * y ^ p) ^ b := Nat.pow_le_pow_left h b
    _ = q ^ b * (y ^ b) ^ p := by rw [mul_pow, Nat.pow_right_comm]
    _ ≤ u ^ p * q' ^ b * (y ^ b) ^ p := Nat.mul_le_mul_right _ hq
    _ = q' ^ b * (u * y ^ b) ^ p := by
        rw [mul_pow]
        ring

/-- A bit is at most 0.30103 digits. -/
theorem two_pow_le_ten_pow {b k : ℕ} (h : b * 30103 ≤ k * 100000) : 2 ^ b ≤ 10 ^ k := by
  have hm : b * 30103 ≤ 100000 * k := by omega
  have hdigits : 1 * 2 ^ 100000 ≤ 1 * 10 ^ 30103 := by decide +kernel
  have hle : 2 ^ b ≤ 1 * 10 ^ k :=
    pow_le_mul_pow (by decide) (by decide) (by decide) hm hdigits (by simp)
  rwa [one_mul] at hle

/-- A bit is at least 0.30103 digits, but for one digit in a hundred million bits. -/
theorem ten_pow_le_two_pow {b k n : ℕ} (h : k * 100000 ≤ b * 30103) (hb : b ≤ 100000000 * n) :
    10 ^ k ≤ 10 ^ n * 2 ^ b := by
  have hm : k * 100000 ≤ 30103 * b := by omega
  have hfactor : 1001 ^ b ≤ (10 ^ n) ^ 100000 * 1000 ^ b := by
    have hbound : 10 ^ b ≤ ((10 ^ n) ^ 100000) ^ 1000 * 1 ^ b := by
      rw [one_pow, mul_one, ← pow_mul, ← pow_mul]
      exact Nat.pow_le_pow_right (by decide) (by omega)
    have hthousandth : 1 * 1001 ^ 1000 ≤ 10 * 1000 ^ 1000 := by decide +kernel
    exact pow_le_mul_pow (by decide) (by decide) (by decide) (mul_comm b 1000).le hthousandth
      hbound
  have hdigits : 1000 * 10 ^ 30103 ≤ 1001 * 2 ^ 100000 := by decide +kernel
  exact pow_le_mul_pow (by decide) (by decide) (by decide) hm hdigits hfactor

end DecimalCalc.Decimal
