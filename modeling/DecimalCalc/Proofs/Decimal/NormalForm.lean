import DecimalCalc.Proofs.Decimal.RationalValue
/-!
# The normal form

`Decimal.IsNormal` says what normalizing arrives at, apart from how it sheds zeros:
normalizing leads there (`normalize_isNormal`), and there it stops
(`IsNormal.normalize_eq`).  An exponent only comes nearer to zero on the way
(`natAbs_exponent_normalize`), and the coefficient grows by the zeros of a positive exponent
alone (`natAbs_coefficient_normalize`).

Normalizing keeps the number (`toRat_normalize`), and a number has only one normal form
(`IsNormal.eq_of_toRat_eq`).  So two forms stand for one number exactly if their normal
forms are the same (`normalize_eq_iff`).
-/

namespace DecimalCalc.Decimal

open Numeral

/-! ## Normal forms -/

/-- A form whose exponent is zero, or below zero while the coefficient does not end in the
digit zero. -/
structure IsNormal (a : Decimal) : Prop where
  exponent_le : a.exponent ≤ 0
  reduced : a.exponent = 0 ∨ ¬(10 : Int) ∣ a.coefficient

theorem isNormal_zero : zero.IsNormal := ⟨Int.le_refl 0, .inl rfl⟩

theorem isNormal_of_exponent_zero (c : Int) : IsNormal ⟨c, 0⟩ := ⟨Int.le_refl 0, .inl rfl⟩

/-- A normal form has no coefficient zero beside the form of zero. -/
theorem IsNormal.eq_zero {a : Decimal} (h : a.IsNormal) (hzero : a.coefficient = 0) :
    a = zero := by
  obtain ⟨c, e⟩ := a
  cases hzero
  rcases h.reduced with rfl | hreduced
  · rfl
  · exact absurd (Int.dvd_zero 10) hreduced

/-- A normal form is made of its parts. -/
theorem IsNormal.ofParts_eq {a : Decimal} (h : a.IsNormal) :
    ofParts a.coefficient a.exponent = a := by
  unfold ofParts
  split
  · next hzero => exact (h.eq_zero hzero).symm
  · rfl

/-! ## Signs -/

theorem IsNormal.neg {a : Decimal} (h : a.IsNormal) : a.neg.IsNormal := by
  unfold Decimal.neg ofParts
  split
  · exact isNormal_zero
  · refine ⟨h.exponent_le, h.reduced.imp_right ?_⟩
    intro hreduced hdvd
    exact hreduced (Int.dvd_neg.mp hdvd)

theorem IsNormal.abs {a : Decimal} (h : a.IsNormal) : a.abs.IsNormal := by
  unfold Decimal.abs
  split
  · exact h.neg
  · exact h

/-- The absolute value of a normal form from its parts. -/
theorem IsNormal.ofParts_natAbs {a : Decimal} (h : a.IsNormal) :
    ofParts a.coefficient.natAbs a.exponent = a.abs := by
  unfold Decimal.abs
  by_cases hneg : a.coefficient < 0
  · rw [if_pos (by simp [isNegative, hneg]), Decimal.neg]
    congr 1
    omega
  · rw [if_neg (by simp [isNegative, hneg]), Int.natAbs_of_nonneg (Int.not_lt.mp hneg)]
    exact h.ofParts_eq

/-- A minus before the absolute value of a negative normal form gives it back. -/
theorem IsNormal.neg_abs {a : Decimal} (h : a.IsNormal) (hneg : a.isNegative = true) :
    a.abs.neg = a := by
  have hcoefficient : a.coefficient < 0 := by simpa [isNegative] using hneg
  have habs : a.abs = ⟨-a.coefficient, a.exponent⟩ := by
    rw [Decimal.abs, if_pos hneg, Decimal.neg, ofParts, if_neg (by omega)]
  rw [habs, Decimal.neg, Int.neg_neg]
  exact h.ofParts_eq

theorem natAbs_exponent_neg (a : Decimal) : a.neg.exponent.natAbs ≤ a.exponent.natAbs := by
  unfold Decimal.neg ofParts
  split
  · exact Nat.zero_le _
  · exact Nat.le_refl _

theorem natAbs_exponent_abs (a : Decimal) : a.abs.exponent.natAbs ≤ a.exponent.natAbs := by
  unfold Decimal.abs
  split
  · exact a.natAbs_exponent_neg
  · exact Nat.le_refl _

/-! ## Shedding zeros -/

/-- Zeros are shed while the exponent stays at most zero. -/
theorem shedZeros_exponent (width : Nat) {a : Decimal} (h : a.exponent ≤ 0) :
    a.exponent ≤ (a.shedZeros width).exponent ∧ (a.shedZeros width).exponent ≤ 0 := by
  fun_induction shedZeros width a with
  | case1 a hshed ih =>
      obtain ⟨hlower, hupper⟩ := ih (by dsimp only; omega)
      dsimp only at hlower
      omega
  | case2 a hstop => exact ⟨Int.le_refl _, h⟩

theorem natAbs_coefficient_shedZeros (width : Nat) (a : Decimal) :
    (a.shedZeros width).coefficient.natAbs ≤ a.coefficient.natAbs := by
  fun_induction shedZeros width a with
  | case1 a hshed ih => exact Nat.le_trans ih (Int.natAbs_ediv_le_natAbs _ _)
  | case2 a hstop => exact Nat.le_refl _

/-- One zero at a time is shed until none is left, or the exponent is zero. -/
theorem shedZeros_zero_reduced {a : Decimal} (h : a.exponent ≤ 0) :
    (a.shedZeros 0).IsNormal := by
  fun_induction shedZeros 0 a with
  | case1 a hshed ih => exact ih (by dsimp only; omega)
  | case2 a hstop =>
      refine ⟨h, ?_⟩
      by_cases hexponent : a.exponent = 0
      · exact .inl hexponent
      · refine .inr fun hdvd => hstop ⟨by omega, ?_⟩
        exact Int.emod_eq_zero_of_dvd hdvd

/-- A normal form has no zeros to shed. -/
theorem IsNormal.shedZeros_eq {a : Decimal} (h : a.IsNormal) (width : Nat) :
    a.shedZeros width = a := by
  rw [shedZeros, if_neg]
  rintro ⟨hexponent, hmod⟩
  rcases h.reduced with hzero | hreduced
  · omega
  · have hten : (10 : Int) ∣ (tenTo (width + 1) : Int) :=
      Int.ofNat_dvd.mpr (Nat.dvd_mul_left 10 _)
    exact hreduced (Int.dvd_trans hten (Int.dvd_of_emod_eq_zero hmod))

/-! ## Normalizing -/

/-- **Normalizing leads to a normal form.** -/
theorem normalize_isNormal (a : Decimal) : a.normalize.IsNormal := by
  unfold normalize
  split
  · exact isNormal_zero
  · split
    · exact isNormal_of_exponent_zero _
    · next hpos =>
        have hle : a.exponent ≤ 0 := Int.not_lt.mp hpos
        exact shedZeros_zero_reduced (shedZeros_exponent 6 hle).2

/-- **A normal form stays as it is.** -/
theorem IsNormal.normalize_eq {a : Decimal} (h : a.IsNormal) : a.normalize = a := by
  unfold normalize
  split
  · next hzero => exact (h.eq_zero hzero).symm
  · rw [if_neg (Int.not_lt.mpr h.exponent_le), h.shedZeros_eq, h.shedZeros_eq]

theorem normalize_normalize (a : Decimal) : a.normalize.normalize = a.normalize :=
  a.normalize_isNormal.normalize_eq

/-- The exponent of the normal form is not farther from zero. -/
theorem natAbs_exponent_normalize (a : Decimal) :
    a.normalize.exponent.natAbs ≤ a.exponent.natAbs := by
  unfold normalize
  split
  · exact Nat.zero_le _
  · split
    · exact Nat.zero_le _
    · next hpos =>
        obtain ⟨hlower, hupper⟩ := shedZeros_exponent 6 (Int.not_lt.mp hpos)
        have hone := shedZeros_exponent 0 hupper
        omega

/-- The coefficient of the normal form is not larger, but for the zeros of a positive
exponent. -/
theorem natAbs_coefficient_normalize (a : Decimal) :
    a.normalize.coefficient.natAbs ≤ a.coefficient.natAbs * tenTo a.exponent.toNat := by
  unfold normalize
  split
  · exact Nat.zero_le _
  · split
    · apply Nat.le_of_eq
      rw [scaledTo, Int.sub_zero, Int.natAbs_mul, Int.natAbs_natCast]
    · next hpos =>
        rw [Int.toNat_of_nonpos (Int.not_lt.mp hpos)]
        calc ((a.shedZeros 6).shedZeros 0).coefficient.natAbs
            ≤ (a.shedZeros 6).coefficient.natAbs := natAbs_coefficient_shedZeros 0 _
          _ ≤ a.coefficient.natAbs := natAbs_coefficient_shedZeros 6 a
          _ = a.coefficient.natAbs * tenTo 0 := (Nat.mul_one _).symm

/-! ## Normal forms and values -/

/-- A zero that is shed from the coefficient is counted in the exponent. -/
theorem toRat_shedZeros (width : Nat) (a : Decimal) : (a.shedZeros width).toRat = a.toRat := by
  fun_induction shedZeros width a with
  | case1 a hshed ih =>
      obtain ⟨-, hmod⟩ := hshed
      have hcoefficient : (a.coefficient / tenTo (width + 1)) * (tenTo (width + 1) : Int) =
          a.coefficient := Int.ediv_mul_cancel (Int.dvd_of_emod_eq_zero hmod)
      rw [ih]
      calc
        ((a.coefficient / (tenTo (width + 1) : Int) : Int) : ℚ) * 10 ^ (a.exponent + (width + 1))
            = ((a.coefficient / (tenTo (width + 1) : Int) : Int) : ℚ) *
                ((tenTo (width + 1) : Int) : ℚ) * 10 ^ a.exponent := by
              rw [tenTo_cast, zpow_add₀ (by norm_num), ← zpow_natCast, Nat.cast_succ]
              ring
        _ = a.toRat := by rw [← Int.cast_mul, hcoefficient, toRat]
  | case2 a hstop => rfl

/-- **Normalizing keeps the number.** -/
theorem toRat_normalize (a : Decimal) : a.normalize.toRat = a.toRat := by
  unfold normalize
  split
  · next hzero => rw [toRat_zero, toRat, hzero, Int.cast_zero, zero_mul]
  · split
    · next hpos =>
        have hscaled := a.toRat_scaledTo (Int.le_of_lt hpos)
        rw [← hscaled]
        rfl
    · rw [toRat_shedZeros, toRat_shedZeros]

/-- Of two normal forms of one number the first cannot have the smaller exponent: its
coefficient would end in a zero. -/
theorem IsNormal.exponent_le_of_toRat_eq {a b : Decimal} (ha : a.IsNormal) (hb : b.IsNormal)
    (h : a.toRat = b.toRat) : b.exponent ≤ a.exponent := by
  by_contra hlt
  have hle : a.exponent ≤ b.exponent := by omega
  have hscaled : (a.coefficient : ℚ) = b.scaledTo a.exponent := by
    have hpos := (ten_zpow_pos a.exponent).ne'
    apply mul_right_cancel₀ hpos
    rw [toRat_scaledTo b hle, ← h, toRat]
  have hcoefficient : a.coefficient = b.scaledTo a.exponent := by exact_mod_cast hscaled
  rcases ha.reduced with hzero | hreduced
  · have hupper := hb.exponent_le
    omega
  · apply hreduced
    rw [hcoefficient, scaledTo]
    apply Int.dvd_mul_of_dvd_right
    obtain ⟨n, hn⟩ : ∃ n, (b.exponent - a.exponent).toNat = n + 1 :=
      ⟨(b.exponent - a.exponent).toNat - 1, by omega⟩
    rw [hn]
    exact Int.ofNat_dvd.mpr (Nat.dvd_mul_left 10 _)

/-- **A number has one normal form.** -/
theorem IsNormal.eq_of_toRat_eq {a b : Decimal} (ha : a.IsNormal) (hb : b.IsNormal)
    (h : a.toRat = b.toRat) : a = b := by
  have hexponent : a.exponent = b.exponent :=
    Int.le_antisymm (hb.exponent_le_of_toRat_eq ha h.symm) (ha.exponent_le_of_toRat_eq hb h)
  have hpos := (ten_zpow_pos b.exponent).ne'
  have hcast : (a.coefficient : ℚ) = b.coefficient := by
    apply mul_right_cancel₀ hpos
    rw [toRat, toRat, hexponent] at h
    exact h
  have hcoefficient : a.coefficient = b.coefficient := by exact_mod_cast hcast
  rw [Decimal.mk.injEq]
  exact ⟨hcoefficient, hexponent⟩

/-- Forms stand for one number exactly if they have one normal form. -/
theorem normalize_eq_iff (a b : Decimal) : a.normalize = b.normalize ↔ a.toRat = b.toRat := by
  constructor
  · intro h
    rw [← toRat_normalize a, h, toRat_normalize]
  · intro h
    apply a.normalize_isNormal.eq_of_toRat_eq b.normalize_isNormal
    rw [toRat_normalize, toRat_normalize, h]

end DecimalCalc.Decimal
