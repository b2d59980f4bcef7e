import DecimalCalc.Proofs.Binary64.NearestNumber
import Mathlib.Data.Nat.Log
import Mathlib.Tactic.FieldSimp
import Mathlib.Tactic.Positivity
/-!
# Rounding a quotient

`Binary64.nearest` chooses an exponent by the order of magnitude of a quotient, and rounds the
significand to an integer.  With this exponent every number of the format is a multiple of the
power of two, or is below all significands with a leading one (`Scaled.nearest`).  So the
nearest integer gives the nearest number, also where the significand is carried to the next
exponent: `rounds_ofRatio`.
-/

namespace DecimalCalc.Binary64

open Numeral

/-! ## Rounding to an integer -/

/-- A natural number is the nearest integer to a rational number, and even if there are two. -/
structure RoundsEven (s : ℚ) (m : Nat) : Prop where
  abs_le : |s - m| ≤ 1 / 2
  tie : |s - m| = 1 / 2 → Even m

theorem roundsEven_roundedQuotient (num : Nat) {den : Nat} (hden : 0 < den) :
    RoundsEven ((num : ℚ) / den) (roundedQuotient num den) := by
  have hpos : (0 : ℚ) < den := by exact_mod_cast hden
  obtain ⟨f, hf⟩ : ∃ f : ℚ, f = (num % den : Nat) / (den : ℚ) := ⟨_, rfl⟩
  have hvalue : (num : ℚ) / den = (num / den : Nat) + f := by
    have hsplit : (num : ℚ) = (num / den : Nat) * den + (num % den : Nat) := by
      exact_mod_cast (Nat.div_add_mod' num den).symm
    rw [hf, div_eq_iff hpos.ne', add_mul, div_mul_cancel₀ _ hpos.ne']
    exact hsplit
  have hnonneg : 0 ≤ f := by
    rw [hf]
    positivity
  have hlt : f < 1 := by
    rw [hf, div_lt_one hpos]
    exact_mod_cast Nat.mod_lt num hden
  have hle : f ≤ 1 / 2 ↔ 2 * (num % den) ≤ den := by
    rw [hf, div_le_div_iff₀ hpos two_pos, one_mul, mul_comm]
    exact_mod_cast Iff.rfl
  have hge : 1 / 2 ≤ f ↔ den ≤ 2 * (num % den) := by
    rw [hf, div_le_div_iff₀ two_pos hpos, one_mul, mul_comm]
    exact_mod_cast Iff.rfl
  rw [hvalue, roundedQuotient]
  split
  · next hdown =>
      have hdistance : |((num / den : Nat) : ℚ) + f - (num / den : Nat)| = f := by
        rw [add_sub_cancel_left, abs_of_nonneg hnonneg]
      refine ⟨hdistance.trans_le (hle.mpr (by omega)), ?_⟩
      intro htie
      have hhalf := hge.mp (hdistance.symm.trans htie).ge
      exact Nat.even_iff.mpr (by omega)
  · next hup =>
      have hdistance : |((num / den : Nat) : ℚ) + f - (num / den + 1 : Nat)| = 1 - f := by
        rw [Nat.cast_succ, add_sub_add_left_eq_sub, abs_sub_comm, abs_of_pos (by linarith)]
      have hhalf := hge.mpr (by omega)
      refine ⟨by rw [hdistance]; linarith, ?_⟩
      intro htie
      have hother := hle.mp (by linarith : f ≤ 1 / 2)
      exact Nat.even_iff.mpr (by omega)

/-- No integer is nearer. -/
theorem RoundsEven.half_le_abs_sub {s : ℚ} {m : Nat} (h : RoundsEven s m) {k : Int} (hk : k ≠ m) :
    1 / 2 ≤ |s - k| := by
  have hapart : (1 : ℚ) ≤ |(k : ℚ) - m| := by
    have hint : 1 ≤ |k - m| := Int.one_le_abs (sub_ne_zero.mpr hk)
    exact_mod_cast hint
  have htriangle := abs_sub_le (k : ℚ) s m
  rw [abs_sub_comm (k : ℚ) s] at htriangle
  linarith [h.abs_le]

/-! ## The order of magnitude -/

theorem two_zpow_eq_div (k : Int) : (2 : ℚ) ^ k = 2 ^ k.toNat / 2 ^ (-k).toNat := by
  rw [eq_div_iff (by positivity), mul_comm, ← zpow_natCast 2 k.toNat]
  exact pow_mul_zpow two_ne_zero (by omega)

/-- A quotient is compared with a power of two in natural numbers. -/
theorem two_zpow_le_div_iff (num : Nat) {den : Nat} (hden : 0 < den) (k : Int) :
    (2 : ℚ) ^ k ≤ (num : ℚ) / den ↔ den * twoTo k.toNat ≤ num * twoTo (-k).toNat := by
  have hpos : (0 : ℚ) < den := by exact_mod_cast hden
  rw [two_zpow_eq_div, div_le_div_iff₀ (by positivity) hpos, ← twoTo_cast, ← twoTo_cast, mul_comm]
  exact_mod_cast Iff.rfl

theorem floorLog2_bounds {num den : Nat} (hnum : 0 < num) (hden : 0 < den) :
    (2 : ℚ) ^ floorLog2 num den ≤ (num : ℚ) / den ∧
      (num : ℚ) / den < 2 ^ (floorLog2 num den + 1) := by
  have hpos : (0 : ℚ) < den := by exact_mod_cast hden
  obtain ⟨k, hk⟩ : ∃ k : Int, k = (Nat.log2 num : Int) - (Nat.log2 den : Int) := ⟨_, rfl⟩
  have hupper : (num : ℚ) / den < 2 ^ (k + 1) := by
    rw [div_lt_iff₀ hpos]
    calc (num : ℚ) < 2 ^ ((Nat.log2 num : Int) + 1) := by exact_mod_cast @Nat.lt_log2_self num
      _ = 2 ^ Nat.log2 den * 2 ^ (k + 1) := (pow_mul_zpow two_ne_zero (by omega)).symm
      _ ≤ 2 ^ (k + 1) * den := by
          rw [mul_comm]
          refine mul_le_mul_of_nonneg_left ?_ (two_zpow_pos _).le
          exact_mod_cast Nat.log2_self_le hden.ne'
  have hlower : (2 : ℚ) ^ (k - 1) ≤ (num : ℚ) / den := by
    rw [le_div_iff₀ hpos]
    calc (2 : ℚ) ^ (k - 1) * den ≤ 2 ^ (k - 1) * 2 ^ (Nat.log2 den + 1) := by
          refine mul_le_mul_of_nonneg_left ?_ (two_zpow_pos _).le
          exact_mod_cast (@Nat.lt_log2_self den).le
      _ = 2 ^ (Nat.log2 num : Int) := by
          rw [mul_comm]
          exact pow_mul_zpow two_ne_zero (by omega)
      _ ≤ num := by exact_mod_cast Nat.log2_self_le hnum.ne'
  have hcompare := two_zpow_le_div_iff num hden k
  rw [floorLog2, ← hk]
  split
  · next h => exact ⟨hcompare.mpr h, hupper⟩
  · next h =>
      refine ⟨hlower, ?_⟩
      rw [sub_add_cancel]
      exact not_le.mp fun hle => h (hcompare.mp hle)

/-! ## The nearest number -/

/-- A positive number in units of a power of two that fits its order of magnitude, rounded to
an integer. -/
structure Scaled (x : ℚ) (q : Int) (m : Nat) : Prop where
  least_le : leastExponent ≤ q
  lt : x < 2 ^ 53 * 2 ^ q
  leading : 2 ^ 52 * 2 ^ q ≤ x ∨ q = leastExponent
  rounded : RoundsEven (x / 2 ^ q) m

namespace Scaled

variable {x : ℚ} {q : Int} {m : Nat}

theorem abs_sub_eq (x : ℚ) (q k : Int) : |x - k * 2 ^ q| = |x / 2 ^ q - k| * 2 ^ q := by
  have hpos := two_zpow_pos q
  conv_lhs => rw [← div_mul_cancel₀ x hpos.ne', ← sub_mul, abs_mul, abs_of_pos hpos]

/-- Among the multiples of the unit the rounded one is the nearest. -/
theorem nearest_multiple (h : Scaled x q m) (k : Int) :
    |x - m * 2 ^ q| ≤ |x - k * 2 ^ q| ∧
      ((k : ℚ) * 2 ^ q ≠ m * 2 ^ q → |x - k * 2 ^ q| = |x - m * 2 ^ q| → Even m) := by
  have hpos := two_zpow_pos q
  have hm := abs_sub_eq x q m
  rw [Int.cast_natCast] at hm
  rw [abs_sub_eq x q k, hm]
  by_cases hk : k = m
  · rw [hk, Int.cast_natCast]
    exact ⟨le_rfl, fun hne _ => (hne rfl).elim⟩
  · have hapart := h.rounded.half_le_abs_sub hk
    refine ⟨mul_le_mul_of_nonneg_right (h.rounded.abs_le.trans hapart) hpos.le, ?_⟩
    intro _ htie
    have hequal := mul_right_cancel₀ hpos.ne' htie
    exact h.rounded.tie (le_antisymm h.rounded.abs_le (hapart.trans hequal.le))

/-- **Every number of the format is a multiple of the unit, or below all numbers with a
leading one.**  So the rounded number is the nearest one. -/
theorem nearest (h : Scaled x q m) {v : ℚ} (hv : OnGrid v) :
    |x - m * 2 ^ q| ≤ |x - v| ∧ (v ≠ m * 2 ^ q → |x - v| = |x - m * 2 ^ q| → Even m) := by
  obtain ⟨n, r, hn, hr, rfl⟩ := hv
  by_cases hle : q ≤ r
  · rw [rescale n hle]
    exact h.nearest_multiple _
  · have hleading : 2 ^ 52 * 2 ^ q ≤ x := by
      have hleast := h.leading
      exact hleast.resolve_right (by omega)
    have hbelow : (n : ℚ) * 2 ^ r < 2 ^ 52 * 2 ^ q := by
      have hnlt : (n : ℚ) < 2 ^ 53 := by exact_mod_cast (abs_lt.mp hn).2
      calc (n : ℚ) * 2 ^ r < 2 ^ 53 * 2 ^ r := mul_lt_mul_of_pos_right hnlt (two_zpow_pos r)
        _ = 2 ^ 52 * 2 ^ (r + 1) := by
            rw [zpow_add₀ (by norm_num)]
            ring
        _ ≤ 2 ^ 52 * 2 ^ q := by
            refine mul_le_mul_of_nonneg_left ?_ (by norm_num)
            exact zpow_le_zpow_right₀ (by norm_num) (by omega)
    have hcloser : |x - m * 2 ^ q| < |x - n * 2 ^ r| := by
      have hmultiple := (h.nearest_multiple (2 ^ 52)).1
      rw [Int.cast_pow, Int.cast_ofNat, abs_of_nonneg (sub_nonneg.mpr hleading)] at hmultiple
      calc |x - m * 2 ^ q| ≤ x - 2 ^ 52 * 2 ^ q := hmultiple
        _ < x - n * 2 ^ r := sub_lt_sub_left hbelow x
        _ ≤ |x - n * 2 ^ r| := le_abs_self _
    exact ⟨hcloser.le, fun _ htie => absurd htie hcloser.ne'⟩

/-- The significand may be rounded up to the next power of two, and not beyond. -/
theorem le_carry (h : Scaled x q m) : m ≤ 2 ^ 53 := by
  have hlt : x / 2 ^ q < 2 ^ 53 := (div_lt_iff₀ (two_zpow_pos q)).mpr h.lt
  have habs := (abs_le.mp h.rounded.abs_le).1
  have hcast : (m : ℚ) < (2 ^ 53 + 1 : Nat) := by
    push_cast
    linarith
  exact Nat.lt_succ_iff.mp (by exact_mod_cast hcast)

/-- A significand with a leading one keeps it. -/
theorem le_significand (h : Scaled x q m) : 2 ^ 52 ≤ m ∨ q = leastExponent := by
  refine h.leading.imp_left ?_
  intro hleading
  have hle : 2 ^ 52 ≤ x / 2 ^ q := (le_div_iff₀ (two_zpow_pos q)).mpr hleading
  have habs := (abs_le.mp h.rounded.abs_le).2
  have hcast : ((2 ^ 52 : Nat) : ℚ) < (m + 1 : Nat) := by
    push_cast
    linarith
  exact Nat.lt_succ_iff.mp (by exact_mod_cast hcast)

/-- The rounded number in any canonical form is the nearest number. -/
theorem isNearest (h : Scaled x q m) (hx : 0 < x) {m' : Nat} {q' : Int}
    (hvalue : (m' : ℚ) * 2 ^ q' = m * 2 ^ q) (heven : Even m → Even m') (hlt : m' < 2 ^ 53)
    (hleast : leastExponent ≤ q') (hleading : 2 ^ 52 ≤ m' ∨ q' = leastExponent) :
    IsNearest x false m' q' := by
  have htoRat : (finite false m' q').toRat = m * 2 ^ q := by rw [toRat_positive, hvalue]
  refine ⟨by simp [hx.le], hlt, hleast, hleading, ?_, ?_⟩
  · intro v hv
    rw [htoRat]
    exact (h.nearest hv).1
  · intro v hv
    rw [htoRat]
    exact fun hne htie => heven ((h.nearest hv).2 hne htie)

end Scaled

/-- A significand of 54 bits is carried to the next exponent. -/
def carried (m : Nat) (q : Int) : Nat × Int := if m = twoTo 53 then (twoTo 52, q + 1) else (m, q)

theorem Scaled.isNearest_carried {x : ℚ} {q : Int} {m : Nat} (h : Scaled x q m) (hx : 0 < x) :
    IsNearest x false (carried m q).1 (carried m q).2 := by
  unfold carried
  split
  · next hm =>
      have hvalue : ((twoTo 52 : Nat) : ℚ) * 2 ^ (q + 1) = m * 2 ^ q := by
        rw [hm, twoTo_cast, twoTo_cast, zpow_add₀ (by norm_num)]
        ring
      have heven : Even (twoTo 52) := by decide
      have hlt : twoTo 52 < 2 ^ 53 := by decide
      have hleast : leastExponent ≤ q + 1 := h.least_le.trans (Int.lt_succ q).le
      exact h.isNearest hx hvalue (fun _ => heven) hlt hleast (.inl le_rfl)
  · next hm =>
      have hlt : m < 2 ^ 53 := lt_of_le_of_ne h.le_carry hm
      exact h.isNearest hx rfl id hlt h.least_le h.le_significand

/-- The exponent that `nearest` chooses for a quotient fits its order of magnitude. -/
theorem scaled_quotient {num den : Nat} (hnum : 0 < num) (hden : 0 < den) :
    let q := max (floorLog2 num den - 52) leastExponent
    Scaled ((num : ℚ) / den) q
      (roundedQuotient (num * twoTo (-q).toNat) (den * twoTo q.toNat)) := by
  intro q
  obtain ⟨hlower, hupper⟩ := floorLog2_bounds hnum hden
  have htwo : ∀ n, 0 < twoTo n := fun n => Nat.pow_pos (n := n) two_pos
  have hunit : ((num * twoTo (-q).toNat : Nat) : ℚ) / (den * twoTo q.toNat : Nat) =
      num / den / 2 ^ q := by
    rw [two_zpow_eq_div, Nat.cast_mul, Nat.cast_mul, twoTo_cast, twoTo_cast, div_div_div_eq]
  refine ⟨le_max_right _ _, ?_, ?_, ?_⟩
  · calc (num : ℚ) / den < 2 ^ (floorLog2 num den + 1) := hupper
      _ = 2 ^ 53 * 2 ^ (floorLog2 num den - 52) :=
          (pow_mul_zpow two_ne_zero (by omega)).symm
      _ ≤ 2 ^ 53 * 2 ^ q := by
          refine mul_le_mul_of_nonneg_left ?_ (by norm_num)
          exact zpow_le_zpow_right₀ (by norm_num) (le_max_left _ _)
  · rcases max_choice (floorLog2 num den - 52) leastExponent with hq | hq
    · refine .inl ?_
      have hpower : (2 : ℚ) ^ 52 * 2 ^ q = 2 ^ floorLog2 num den :=
        pow_mul_zpow two_ne_zero (by omega)
      rwa [hpower]
    · exact .inr hq
  · rw [← hunit]
    exact roundsEven_roundedQuotient _ (Nat.mul_pos hden (htwo _))

/-! ## Quotients of integers -/

theorem rounds_nearest (negative : Bool) {num den : Nat} (hnum : 0 < num) (hden : 0 < den) :
    Rounds (if negative then -((num : ℚ) / den) else num / den) (nearest negative num den) := by
  have hx : 0 < (num : ℚ) / den := by positivity
  have hnearest := ((scaled_quotient hnum hden).isNearest_carried hx).withSign hx.ne' negative
  rw [nearest, if_neg hnum.ne']
  exact hnearest.rounds

theorem rounds_zero : Rounds 0 (zero false) := by
  have hvalue : (zero false).toRat = 0 := by rw [zero, toRat_positive, Nat.cast_zero, zero_mul]
  refine ⟨⟨by simp, by decide, le_rfl, .inr rfl, ?_, fun _ _ _ _ => Even.zero⟩, by decide⟩
  intro v _
  change |0 - (zero false).toRat| ≤ |0 - v|
  rw [hvalue, sub_zero, abs_zero]
  exact abs_nonneg _

/-- **A quotient of integers is rounded to the nearest number.** -/
theorem rounds_ofRatio (num : Int) {den : Nat} (hden : 0 < den) :
    Rounds ((num : ℚ) / den) (ofRatio num den) := by
  rcases lt_trichotomy num 0 with hneg | rfl | hpos
  · obtain ⟨n, rfl⟩ : ∃ n : Nat, num = -n := ⟨num.natAbs, by omega⟩
    have hrounds := rounds_nearest true (by omega : 0 < n) hden
    rw [ofRatio, decide_eq_true hneg, Int.natAbs_neg, Int.natAbs_natCast, Int.cast_neg, neg_div,
      Int.cast_natCast]
    exact hrounds
  · rw [Int.cast_zero, zero_div]
    exact rounds_zero
  · obtain ⟨n, rfl⟩ : ∃ n : Nat, num = n := ⟨num.natAbs, by omega⟩
    have hrounds := rounds_nearest false (by omega : 0 < n) hden
    rw [ofRatio, decide_eq_false hpos.not_gt, Int.natAbs_natCast, Int.cast_natCast]
    exact hrounds

end DecimalCalc.Binary64
