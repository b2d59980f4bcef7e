import DecimalCalc.Decimal.Division
import DecimalCalc.Proofs.Decimal.RationalValue
import Mathlib.Data.Rat.Floor
import Mathlib.Tactic.FieldSimp
import Mathlib.Tactic.Positivity
/-!
# Rounding at a place

A quotient stops at a place, the smaller of the precision and the difference of the
operands' exponents.  There it is the exact quotient, rounded to a multiple of ten to that
place: `Decimal.toRat_quotient`.  So the operands' forms show in a quotient through its
place only.  Cutting a number at a place is the same rounding toward zero
(`toRat_truncate`).

A rounding drops the fraction of the absolute value, after adding the offset of its mode.
It is odd (`Rounding.nearby_neg`), so what is said of quotients of natural numbers carries
over to all signs.  The integer part of a number is the rounding toward zero, at the place of
the units (`coefficient_integer`).
-/

namespace DecimalCalc

open Numeral

namespace Rounding

/-- What is added to an absolute value before its fraction is dropped. -/
def offset : Rounding → ℚ
  | truncate => 0
  | halfAway => 1 / 2

/-- The integer that a rational number is rounded to. -/
def nearby (mode : Rounding) (x : ℚ) : ℤ :=
  if 0 ≤ x then ⌊x + mode.offset⌋ else -⌊-x + mode.offset⌋

/-- A rational number rounded to a multiple of ten to a place. -/
def atPlace (mode : Rounding) (place : Int) (x : ℚ) : ℚ :=
  mode.nearby (x / 10 ^ place) * 10 ^ place

variable (mode : Rounding)

theorem floor_offset : ⌊mode.offset⌋ = 0 := by
  cases mode with
  | truncate => exact Int.floor_zero
  | halfAway =>
      rw [Int.floor_eq_zero_iff, offset]
      norm_num

theorem nearby_of_nonneg {x : ℚ} (h : 0 ≤ x) : mode.nearby x = ⌊x + mode.offset⌋ := if_pos h

/-- A rounding treats both signs alike. -/
theorem nearby_neg (x : ℚ) : mode.nearby (-x) = -mode.nearby x := by
  rcases lt_trichotomy x 0 with hneg | rfl | hpos
  · rw [nearby, nearby, if_pos (by linarith), if_neg (by linarith), neg_neg]
  · rw [neg_zero, nearby_of_nonneg mode le_rfl, zero_add, floor_offset, neg_zero]
  · rw [nearby, nearby, if_neg (by linarith), if_pos hpos.le, neg_neg]

/-- An integer is rounded to itself. -/
theorem nearby_intCast (i : ℤ) : mode.nearby i = i := by
  have hfloor : ∀ j : ℤ, ⌊(j : ℚ) + mode.offset⌋ = j := by
    intro j
    rw [Int.floor_intCast_add, floor_offset, add_zero]
  unfold nearby
  split
  · exact hfloor i
  · have hneg := hfloor (-i)
    rw [Int.cast_neg] at hneg
    rw [hneg, neg_neg]

/-! ## Rounding at a place -/

@[simp] theorem atPlace_zero (place : Int) : mode.atPlace place 0 = 0 := by
  have hzero : mode.nearby ((0 : ℤ) : ℚ) = 0 := mode.nearby_intCast 0
  rw [Int.cast_zero] at hzero
  rw [atPlace, zero_div, hzero, Int.cast_zero, zero_mul]

/-- A multiple of ten to the place stays as it is. -/
theorem atPlace_of_multiple (c place : Int) :
    mode.atPlace place (c * 10 ^ place) = c * 10 ^ place := by
  rw [atPlace, mul_div_assoc, div_self (Decimal.ten_zpow_pos place).ne', mul_one, nearby_intCast]

/-- A number that is not negative is rounded to one, and loses less than one unit of the
place. -/
theorem atPlace_bounds (place : Int) {x : ℚ} (h : 0 ≤ x) :
    0 ≤ mode.atPlace place x ∧ x < mode.atPlace place x + 10 ^ place := by
  have hten := Decimal.ten_zpow_pos place
  have hscaled : 0 ≤ x / 10 ^ place := div_nonneg h hten.le
  have hoffset : 0 ≤ mode.offset := by
    cases mode with
    | truncate => exact le_rfl
    | halfAway => exact one_half_pos.le
  have hupper := Int.lt_floor_add_one (x / 10 ^ place + mode.offset)
  have hfloor : (0 : ℚ) ≤ ⌊x / 10 ^ place + mode.offset⌋ := by
    exact_mod_cast Int.floor_nonneg.mpr (add_nonneg hscaled hoffset)
  rw [atPlace, nearby_of_nonneg mode hscaled]
  refine ⟨mul_nonneg hfloor hten.le, ?_⟩
  calc x = x / 10 ^ place * 10 ^ place := (div_mul_cancel₀ x hten.ne').symm
    _ < (⌊x / 10 ^ place + mode.offset⌋ + 1) * 10 ^ place :=
        mul_lt_mul_of_pos_right (by linarith) hten
    _ = ⌊x / 10 ^ place + mode.offset⌋ * 10 ^ place + 10 ^ place := by ring

/-- Cut toward zero, a number that is not negative does not grow. -/
theorem truncate_atPlace_bounds (place : Int) {x : ℚ} (h : 0 ≤ x) :
    0 ≤ truncate.atPlace place x ∧ truncate.atPlace place x ≤ x ∧
      x < truncate.atPlace place x + 10 ^ place := by
  have hten := Decimal.ten_zpow_pos place
  have hlower := Int.floor_le (x / 10 ^ place)
  obtain ⟨hnonneg, hlt⟩ := truncate.atPlace_bounds place h
  refine ⟨hnonneg, ?_, hlt⟩
  rw [atPlace, nearby_of_nonneg truncate (div_nonneg h hten.le), offset, add_zero]
  calc (⌊x / 10 ^ place⌋ : ℚ) * 10 ^ place
      ≤ x / 10 ^ place * 10 ^ place := mul_le_mul_of_nonneg_right hlower hten.le
    _ = x := div_mul_cancel₀ x hten.ne'

/-! ## Quotients of integers -/

/-- The rounded quotient of two integers, from the quotient toward zero and what is left. -/
def quotient (mode : Rounding) (n d : Int) : Int :=
  match mode with
  | truncate => n.tdiv d
  | halfAway =>
    if d.natAbs ≤ 2 * (n.tmod d).natAbs then n.tdiv d + n.sign * d.sign else n.tdiv d

theorem quotient_neg_left (n d : Int) : mode.quotient (-n) d = -mode.quotient n d := by
  cases mode with
  | truncate => exact Int.neg_tdiv n d
  | halfAway =>
      simp only [quotient, Int.neg_tmod, Int.natAbs_neg, Int.neg_tdiv, Int.sign_neg]
      split
      · ring
      · rfl

theorem quotient_neg_right (n d : Int) : mode.quotient n (-d) = -mode.quotient n d := by
  cases mode with
  | truncate => exact Int.tdiv_neg n d
  | halfAway =>
      simp only [quotient, Int.tmod_neg, Int.natAbs_neg, Int.tdiv_neg, Int.sign_neg]
      split
      · ring
      · rfl

/-- Half a unit more reaches the next integer if what is left is at least half of the
divisor. -/
theorem half_away_div (n d : Nat) (hd : 0 < d) :
    (2 * n + d) / (2 * d) = n / d + if d ≤ 2 * (n % d) then 1 else 0 := by
  have hn := Nat.div_add_mod n d
  have hlt := Nat.mod_lt n hd
  have hsum : 2 * n + d = (2 * d) * (n / d) + (2 * (n % d) + d) := by
    calc 2 * n + d = 2 * (d * (n / d) + n % d) + d := by rw [hn]
      _ = (2 * d) * (n / d) + (2 * (n % d) + d) := by ring
  rw [hsum, Nat.mul_add_div (by omega)]
  congr 1
  split
  · exact Nat.div_eq_of_lt_le (by omega) (by omega)
  · exact Nat.div_eq_of_lt (by omega)

theorem quotient_natCast (n d : Nat) (hd : 0 < d) :
    mode.quotient n d = mode.nearby ((n : ℚ) / d) := by
  rw [nearby_of_nonneg mode (by positivity)]
  cases mode with
  | truncate =>
      rw [offset, add_zero, Rat.floor_natCast_div_natCast]
      exact (Int.ofNat_tdiv n d).symm
  | halfAway =>
      have hhalf : (n : ℚ) / d + 1 / 2 = ((2 * n + d : Nat) : ℚ) / ((2 * d : Nat) : ℚ) := by
        have hne : (d : ℚ) ≠ 0 := by exact_mod_cast hd.ne'
        push_cast
        field_simp
      have hmod : ((n : Int).tmod d).natAbs = n % d := by
        rw [← Int.ofNat_tmod, Int.natAbs_natCast]
      rw [offset, hhalf, Rat.floor_natCast_div_natCast]
      simp only [quotient, Int.natAbs_natCast, hmod]
      rw [← Int.ofNat_tdiv, Int.sign_eq_one_of_pos (by exact_mod_cast hd : (0 : Int) < d)]
      have hsign : d ≤ 2 * (n % d) → (n : Int).sign = 1 := by
        intro hle
        have hpos : 0 < n := by
          rcases Nat.eq_zero_or_pos n with rfl | hpos
          · rw [Nat.zero_mod] at hle
            omega
          · exact hpos
        exact Int.sign_eq_one_of_pos (by exact_mod_cast hpos)
      have hdiv : ((2 * n + d : Nat) : Int) / ((2 * d : Nat) : Int) =
          ((n / d + if d ≤ 2 * (n % d) then 1 else 0 : Nat) : Int) := by
        rw [← half_away_div n d hd]
        rfl
      rw [hdiv]
      split
      · next hle => rw [hsign hle]; push_cast; ring
      · push_cast
        ring

/-- **The rounded quotient of integers** is the rational quotient, rounded. -/
theorem quotient_eq_nearby (n : Int) {d : Int} (hd : d ≠ 0) :
    mode.quotient n d = mode.nearby ((n : ℚ) / d) := by
  have hnat : ∀ (n : Int) (d : Nat), 0 < d → mode.quotient n d = mode.nearby ((n : ℚ) / d) := by
    intro n d hd
    obtain ⟨m, rfl | rfl⟩ := n.eq_nat_or_neg
    · rw [Int.cast_natCast]
      exact mode.quotient_natCast m d hd
    · rw [quotient_neg_left, Int.cast_neg, neg_div, nearby_neg, Int.cast_natCast,
        mode.quotient_natCast m d hd]
  obtain ⟨k, rfl | rfl⟩ := d.eq_nat_or_neg
  · rw [Int.cast_natCast]
    exact hnat n k (by omega)
  · rw [quotient_neg_right, Int.cast_neg, div_neg, nearby_neg, Int.cast_natCast,
      hnat n k (by omega)]

end Rounding

namespace Decimal

/-- The place at which a quotient stops. -/
def quotientPlace (a b : Decimal) (p : Int) : Int := min (a.exponent - b.exponent) p

/-- **The number of a quotient** is the exact quotient, rounded at the place where it
stops. -/
theorem toRat_quotient (a : Decimal) {b : Decimal} (hb : b.toRat ≠ 0) (p : Int)
    (mode : Rounding) :
    (a.quotient b p mode).toRat =
      mode.atPlace (a.quotientPlace b p) (a.toRat / b.toRat) := by
  unfold quotient
  split
  · next hzero => rw [(isZero_iff a).mp hzero, zero_div, toRat_zero, Rounding.atPlace_zero]
  · have hcoefficient : b.coefficient ≠ 0 := by
      intro hzero
      rw [toRat, hzero, Int.cast_zero, zero_mul] at hb
      exact hb rfl
    have hquotient := mode.quotient_eq_nearby
      (a.coefficient * tenTo (a.exponent - b.exponent - a.quotientPlace b p).toNat) hcoefficient
    have hplace : a.quotientPlace b p ≤ a.exponent - b.exponent := min_le_left _ _
    have hshift : ((a.exponent - b.exponent - a.quotientPlace b p).toNat : Int) =
        a.exponent - b.exponent - a.quotientPlace b p := by omega
    have hscaled : ((a.coefficient *
        tenTo (a.exponent - b.exponent - a.quotientPlace b p).toNat : Int) : ℚ) / b.coefficient =
          a.toRat / b.toRat / 10 ^ a.quotientPlace b p := by
      rw [Int.cast_mul, tenTo_cast, ← zpow_natCast, hshift, zpow_sub₀ (by norm_num),
        zpow_sub₀ (by norm_num), toRat, toRat]
      have ha := (ten_zpow_pos a.exponent).ne'
      have hb' := (ten_zpow_pos b.exponent).ne'
      have hp := (ten_zpow_pos (a.quotientPlace b p)).ne'
      have hcast : (b.coefficient : ℚ) ≠ 0 := by exact_mod_cast hcoefficient
      field_simp
    rw [Rounding.atPlace, ← hscaled, ← hquotient]
    exact toRat_ofParts _ _

/-- A quotient stops at its place, unless it is zero. -/
theorem quotient_eq_zero_or_exponent (a b : Decimal) (p : Int) (mode : Rounding) :
    a.quotient b p mode = zero ∨ (a.quotient b p mode).exponent = a.quotientPlace b p := by
  unfold quotient
  split
  · exact .inl rfl
  · exact ofParts_eq_zero_or_exponent _ _

/-- The number of a reciprocal. -/
theorem toRat_reciprocal {b : Decimal} (hb : b.toRat ≠ 0) (p : Int) (mode : Rounding) :
    (one.quotient b p mode).toRat = mode.atPlace (min (-b.exponent) p) b.toRat⁻¹ := by
  have hplace : one.quotientPlace b p = min (-b.exponent) p :=
    congrArg (min · p) (Int.zero_sub b.exponent)
  rw [toRat_quotient one hb, hplace, toRat_one, one_div]

/-- A division by a number other than zero has the quotient as its result. -/
theorem divide_eq_quotient (a : Decimal) {b : Decimal} (hb : b.toRat ≠ 0) {ctx : Context}
    {precision rounding : Value} {p : Int} {mode : Rounding}
    (hp : ctx.resolvePrecision precision = .ok p)
    (hmode : ctx.resolveRounding rounding = .ok mode) :
    a.divide ctx b precision rounding = .ok (a.quotient b p mode) := by
  have hzero : ¬ b.isZero = true := fun h => hb ((isZero_iff b).mp h)
  unfold divide
  rw [hp, hmode]
  exact if_neg hzero

/-- Cutting a number at a place rounds it toward zero there. -/
theorem toRat_truncate (a : Decimal) (place : Int) :
    (a.truncate place).toRat = Rounding.truncate.atPlace place a.toRat := by
  unfold truncate
  split
  · next hle =>
      rw [← toRat_scaledTo a hle]
      exact (Rounding.truncate.atPlace_of_multiple _ _).symm
  · next hlt =>
      have hten : (tenTo (place - a.exponent).toNat : Int) ≠ 0 := by
        have hcast : ((tenTo (place - a.exponent).toNat : Int) : ℚ) ≠ 0 := by
          rw [tenTo_cast]
          positivity
        exact_mod_cast hcast
      have hquotient := Rounding.truncate.quotient_eq_nearby a.coefficient hten
      have hshift : ((place - a.exponent).toNat : Int) = place - a.exponent := by omega
      have hscaled : (a.coefficient : ℚ) / ((tenTo (place - a.exponent).toNat : Int) : ℚ) =
          a.toRat / 10 ^ place := by
        have ha := (ten_zpow_pos a.exponent).ne'
        have hp := (ten_zpow_pos place).ne'
        rw [tenTo_cast, ← zpow_natCast, hshift, zpow_sub₀ (by norm_num), toRat]
        field_simp
      rw [Rounding.atPlace, ← hscaled, ← hquotient]
      exact toRat_ofParts _ _

/-- The integer part of a number is the number, rounded toward zero. -/
theorem coefficient_integer (a : Decimal) :
    a.integer.coefficient = Rounding.truncate.nearby a.toRat := by
  rcases lt_trichotomy a.exponent 0 with hneg | hzero | hpos
  · have hten : (tenTo (-a.exponent).toNat : Int) ≠ 0 := by
      have hcast : ((tenTo (-a.exponent).toNat : Int) : ℚ) ≠ 0 := by
        rw [tenTo_cast]
        positivity
      exact_mod_cast hcast
    rw [integer, if_neg hneg.ne, if_neg hneg.not_gt, ofParts_coefficient,
      toRat_of_neg_exponent hneg, ← Rounding.truncate.quotient_eq_nearby a.coefficient hten]
    rfl
  · rw [integer, if_pos hzero, toRat, hzero, zpow_zero, mul_one, Rounding.nearby_intCast]
  · rw [integer, if_neg hpos.ne', if_pos hpos, ofParts_coefficient,
      ← toRat_scaledTo a hpos.le, zpow_zero, mul_one, Rounding.nearby_intCast]

/-- The integer part is an integer in its form too. -/
theorem exponent_integer (a : Decimal) : a.integer.exponent = 0 := by
  unfold integer ofParts
  split
  · assumption
  · split <;> split <;> rfl

end Decimal

end DecimalCalc
