import DecimalCalc.Proofs.Decimal.QuotientRounding
/-!
# Cutting numbers

A number that is cut at a place is either kept as it is, or divided by a power of ten toward
zero, or it becomes the form of zero.  As numbers all three are the same rounding, so a cut
keeps the order (`Rounding.nearby_mono`) and does not depend on the form.

Cutting twice is cutting once at the coarser place, and in the form too:
`Decimal.truncate_truncate`.  The three cases meet in `Decimal.truncate_ofParts`, which says of
any parts what a cut makes of them, and two divisions toward zero in `Numeral.tdiv_tenTo_tdiv`.
-/

namespace DecimalCalc

open Numeral

/-- Dividing toward zero by one power of ten and then by another one. -/
theorem Numeral.tdiv_tenTo_tdiv (c : Int) (m n : Nat) :
    (c.tdiv (tenTo m)).tdiv (tenTo n) = c.tdiv (tenTo (m + n)) := by
  have hten : tenTo (m + n) = tenTo m * tenTo n := Nat.pow_add 10 m n
  have hnat : ∀ k : Nat, ((k : Int).tdiv (tenTo m)).tdiv (tenTo n) =
      (k : Int).tdiv (tenTo (m + n)) := by
    intro k
    rw [← Int.ofNat_tdiv, ← Int.ofNat_tdiv, ← Int.ofNat_tdiv, Nat.div_div_eq_div_mul, hten]
  obtain ⟨k, rfl | rfl⟩ := c.eq_nat_or_neg
  · exact hnat k
  · rw [Int.neg_tdiv, Int.neg_tdiv, Int.neg_tdiv, hnat]

/-! ## Cuts as numbers -/

namespace Rounding

variable (mode : Rounding)

/-- A rounding keeps the sign of a number that is not negative. -/
theorem nearby_nonneg {x : ℚ} (h : 0 ≤ x) : 0 ≤ mode.nearby x := by
  rw [nearby_of_nonneg mode h, ← mode.floor_offset]
  exact Int.floor_mono (by linarith)

/-- **A rounding keeps the order.** -/
theorem nearby_mono {x y : ℚ} (h : x ≤ y) : mode.nearby x ≤ mode.nearby y := by
  have hnonneg : ∀ {x y : ℚ}, 0 ≤ x → x ≤ y → mode.nearby x ≤ mode.nearby y := by
    intro x y hx hxy
    rw [nearby_of_nonneg mode hx, nearby_of_nonneg mode (hx.trans hxy)]
    exact Int.floor_mono (by linarith)
  rcases le_total 0 x with hx | hx
  · exact hnonneg hx h
  have hleft := mode.nearby_nonneg (neg_nonneg.mpr hx)
  rw [nearby_neg] at hleft
  rcases le_total 0 y with hy | hy
  · have hright := mode.nearby_nonneg hy
    omega
  · have hopposite := hnonneg (neg_nonneg.mpr hy) (neg_le_neg h)
    rw [nearby_neg, nearby_neg] at hopposite
    omega

theorem atPlace_mono (place : Int) {x y : ℚ} (h : x ≤ y) :
    mode.atPlace place x ≤ mode.atPlace place y := by
  have hten := (Decimal.ten_zpow_pos place).le
  have hnearby := mode.nearby_mono (div_le_div_of_nonneg_right h hten)
  exact mul_le_mul_of_nonneg_right (by exact_mod_cast hnearby) hten

end Rounding

/-- A cut takes off less than one unit of its place. -/
theorem IsCut.abs_sub_lt {place : Int} {x y : ℚ} (h : IsCut place x y) :
    |x - y| < 10 ^ place := by
  have hle := h.abs_le
  have hlt := h.lt
  rcases mul_nonneg_iff.mp h.sameSign with ⟨hx, hy⟩ | ⟨hx, hy⟩
  · rw [abs_of_nonneg hx, abs_of_nonneg hy] at hle hlt
    rw [abs_of_nonneg (by linarith)]
    linarith
  · rw [abs_of_nonpos hx, abs_of_nonpos hy] at hle hlt
    rw [abs_of_nonpos (by linarith)]
    linarith

/-! ## Cuts as forms -/

namespace Decimal

/-- What a cut makes of parts, also of those with the coefficient zero. -/
theorem truncate_ofParts (c e place : Int) :
    (ofParts c e).truncate place =
      if place ≤ e then ofParts c e
      else ofParts (c.tdiv (tenTo (place - e).toNat)) place := by
  by_cases hc : c = 0
  · subst hc
    simp [ofParts, truncate, zero]
  · simp [ofParts, truncate, hc]

/-- **Cutting twice is cutting once**, at the coarser one of the two places. -/
theorem truncate_truncate (a : Decimal) (p q : Int) :
    (a.truncate p).truncate q = a.truncate (max p q) := by
  by_cases hp : p ≤ a.exponent
  · have hkept : a.truncate p = a := if_pos hp
    rw [hkept]
    by_cases hq : q ≤ a.exponent
    · have hmax : max p q ≤ a.exponent := max_le hp hq
      rw [truncate, truncate, if_pos hq, if_pos hmax]
    · rw [max_eq_right (by omega)]
  · have hcut : a.truncate p = ofParts (a.coefficient.tdiv (tenTo (p - a.exponent).toNat)) p :=
      if_neg hp
    rw [hcut, truncate_ofParts]
    by_cases hq : q ≤ p
    · rw [if_pos hq, max_eq_left hq, hcut]
    · have hdigits : (p - a.exponent).toNat + (q - p).toNat = (q - a.exponent).toNat := by
        omega
      rw [if_neg hq, max_eq_right (by omega), tdiv_tenTo_tdiv, hdigits, truncate,
        if_neg (by omega)]

/-- **What cutting a number at a place does.**  It cuts the number toward zero to a multiple of
ten to the place, and takes off less than one unit of it.  Cutting once more is one cut at the
coarser place, in the same form.  A cut keeps the order of numbers, and depends on the number
alone and not on its form. -/
theorem truncate_cuts (a : Decimal) (p q : Int) :
    IsCut p a.toRat (a.truncate p).toRat ∧
      |a.toRat - (a.truncate p).toRat| < 10 ^ p ∧
      (a.truncate p).truncate q = a.truncate (max p q) ∧
      ∀ b : Decimal,
        (a.toRat ≤ b.toRat → (a.truncate p).toRat ≤ (b.truncate p).toRat) ∧
          (a.toRat = b.toRat → (a.truncate p).toRat = (b.truncate p).toRat) := by
  have hcut := isCut_truncate a p
  refine ⟨hcut, hcut.abs_sub_lt, truncate_truncate a p q, fun b => ⟨fun hle => ?_, fun heq => ?_⟩⟩
  · rw [toRat_truncate, toRat_truncate]
    exact Rounding.truncate.atPlace_mono p hle
  · rw [toRat_truncate, toRat_truncate, heq]

end Decimal

end DecimalCalc
