import DecimalCalc.Proofs.Decimal.PlaceRounding
import DecimalCalc.Proofs.Precision
/-!
# What quotients are rounded to

The two rounding modes, said of a number and its result alone.  A cut (`IsCut`) is the
multiple of ten to the place next to the number on the side of zero; the nearest multiple
(`IsNearest`) has no other one nearer, and of two that are equally near it is the one farther
from zero.  `Rounding.rounds_atPlace` says that the modes do this, and `divide_rounds` that a
division does.

A cut is unique (`IsCut.eq`), and cutting at a finer place first changes nothing
(`IsCut.trans`).  So a quotient that is cut once more at the precision depends on the numbers
that are divided, and no longer on their forms: `truncate_divide_congr`.
-/

namespace DecimalCalc

/-- A number is another one, cut toward zero to a multiple of ten to a place. -/
structure IsCut (place : Int) (x y : ℚ) : Prop where
  multiple : ∃ n : ℤ, y = n * 10 ^ place
  abs_le : |y| ≤ |x|
  lt : |x| < |y| + 10 ^ place
  sameSign : 0 ≤ x * y

/-- A number is the multiple of ten to a place that is nearest to another one, and the
farther one from zero if there are two. -/
structure IsNearest (place : Int) (x y : ℚ) : Prop where
  multiple : ∃ n : ℤ, y = n * 10 ^ place
  nearest : ∀ m : ℤ, |x - y| ≤ |x - m * 10 ^ place|
  tie : ∀ m : ℤ, (m : ℚ) * 10 ^ place ≠ y → |x - m * 10 ^ place| = |x - y| →
    |(m : ℚ) * 10 ^ place| < |y|

/-- What a rounding mode makes of a number at a place. -/
def Rounding.Rounds : Rounding → Int → ℚ → ℚ → Prop
  | truncate => IsCut
  | halfAway => IsNearest

/-! ## Cuts -/

section Cuts

variable {place fine : Int} {x y z : ℚ}

theorem IsCut.neg (h : IsCut place x y) : IsCut place (-x) (-y) := by
  obtain ⟨n, hn⟩ := h.multiple
  refine ⟨⟨-n, ?_⟩, ?_, ?_, ?_⟩
  · rw [hn, Int.cast_neg, neg_mul]
  · rw [abs_neg, abs_neg]
    exact h.abs_le
  · rw [abs_neg, abs_neg]
    exact h.lt
  · rw [neg_mul_neg]
    exact h.sameSign

/-- The absolute value of a multiple is one. -/
theorem abs_multiple (n place : Int) : |(n : ℚ) * 10 ^ place| = |n| * 10 ^ place := by
  rw [abs_mul, abs_of_pos (Decimal.ten_zpow_pos place), Int.cast_abs]

/-- A multiple that is below another one is at least one unit below it. -/
theorem add_unit_le_of_multiple {m n : ℤ} (h : (m : ℚ) * 10 ^ place < n * 10 ^ place) :
    (m : ℚ) * 10 ^ place + 10 ^ place ≤ n * 10 ^ place := by
  have hten := Decimal.ten_zpow_pos place
  have hlt : m < n := by exact_mod_cast lt_of_mul_lt_mul_right h hten.le
  have hle : (m : ℚ) + 1 ≤ n := by exact_mod_cast Int.add_one_le_iff.mpr hlt
  calc (m : ℚ) * 10 ^ place + 10 ^ place = (m + 1) * 10 ^ place := by ring
    _ ≤ n * 10 ^ place := mul_le_mul_of_nonneg_right hle hten.le

/-- Two cuts of a number are equally far from zero. -/
theorem IsCut.abs_le_abs (hy : IsCut place x y) (hz : IsCut place x z) : |y| ≤ |z| := by
  obtain ⟨m, rfl⟩ := hy.multiple
  obtain ⟨n, rfl⟩ := hz.multiple
  have hlt := hy.abs_le.trans_lt hz.lt
  rw [abs_multiple, abs_multiple] at hlt ⊢
  by_contra hnot
  exact hlt.not_ge (add_unit_le_of_multiple (not_le.mp hnot))

/-- **A number has one cut at a place.** -/
theorem IsCut.eq (hy : IsCut place x y) (hz : IsCut place x z) : y = z := by
  have habs : |y| = |z| := le_antisymm (hy.abs_le_abs hz) (hz.abs_le_abs hy)
  rcases abs_eq_abs.mp habs with heq | hopposite
  · exact heq
  · have hsign := hy.sameSign
    rw [hopposite, mul_neg] at hsign
    have hproduct : x * z = 0 := by linarith [hz.sameSign]
    have hzero : z = 0 := by
      rcases mul_eq_zero.mp hproduct with hx | hz0
      · have hle := hz.abs_le
        rw [hx, abs_zero] at hle
        exact abs_nonpos_iff.mp hle
      · exact hz0
    rw [hopposite, hzero, neg_zero]

/-- **Cutting twice.**  A cut at a place, of a cut at a finer place, is a cut of the number
itself: the unit that the finer cut may lose does not reach the next multiple. -/
theorem IsCut.trans (hxy : IsCut fine x y) (hyz : IsCut place y z) (hle : fine ≤ place) :
    IsCut place x z := by
  obtain ⟨n, hn⟩ := hyz.multiple
  refine ⟨⟨n, hn⟩, hyz.abs_le.trans hxy.abs_le, ?_, ?_⟩
  · obtain ⟨m, hm⟩ := hxy.multiple
    obtain ⟨digits, hdigits⟩ : ∃ digits : Nat, place = digits + fine :=
      ⟨(place - fine).toNat, by omega⟩
    have hplace : (10 : ℚ) ^ place = 10 ^ digits * 10 ^ fine := by
      rw [hdigits, zpow_add₀ (by norm_num), zpow_natCast]
    have hnext : |z| + 10 ^ place = (((|n| + 1) * 10 ^ digits : ℤ) : ℚ) * 10 ^ fine := by
      rw [hn, abs_multiple, hplace]
      push_cast
      ring
    have hbelow := hyz.lt
    rw [hnext, hm, abs_multiple] at hbelow
    have hunit := add_unit_le_of_multiple hbelow
    rw [← abs_multiple, ← hm, ← hnext] at hunit
    exact hxy.lt.trans_le hunit
  · by_cases hy : y = 0
    · have hz := hyz.abs_le
      rw [hy, abs_zero] at hz
      rw [abs_nonpos_iff.mp hz, mul_zero]
    · have hsquare : 0 < y * y := mul_self_pos.mpr hy
      have hproduct : 0 ≤ x * z * (y * y) := by
        calc 0 ≤ (x * y) * (y * z) := mul_nonneg hxy.sameSign hyz.sameSign
          _ = x * z * (y * y) := by ring
      exact nonneg_of_mul_nonneg_left hproduct hsquare

end Cuts

/-! ## Nearest multiples -/

section Nearest

variable {place : Int} {x y : ℚ}

theorem IsNearest.neg (h : IsNearest place x y) : IsNearest place (-x) (-y) := by
  have hdistance : ∀ u : ℚ, |-x - u| = |x - -u| := by
    intro u
    rw [← abs_neg, neg_sub', neg_neg]
  have hmultiple : ∀ m : ℤ, -((m : ℚ) * 10 ^ place) = ((-m : ℤ) : ℚ) * 10 ^ place := by
    intro m
    rw [Int.cast_neg, neg_mul]
  obtain ⟨n, hn⟩ := h.multiple
  refine ⟨⟨-n, by rw [hn, hmultiple]⟩, ?_, ?_⟩
  · intro m
    rw [hdistance, hdistance, neg_neg, hmultiple]
    exact h.nearest (-m)
  · intro m hne htie
    rw [hdistance, hdistance, neg_neg, hmultiple] at htie
    have hother : ((-m : ℤ) : ℚ) * 10 ^ place ≠ y := by
      rw [← hmultiple]
      exact fun heq => hne (by rw [← heq, neg_neg])
    have hlt := h.tie (-m) hother htie
    rwa [← hmultiple, abs_neg, ← abs_neg y] at hlt

/-- Of two integers equally near to a number that is not negative, the rounded one is
farther from zero. -/
theorem abs_lt_floor_of_tie {s : ℚ} (hs : 0 ≤ s) {m : ℤ} (hne : m ≠ ⌊s + 1 / 2⌋)
    (htie : |s - m| = |s - ⌊s + 1 / 2⌋|) : |m| < |⌊s + 1 / 2⌋| := by
  generalize hn : ⌊s + 1 / 2⌋ = n at hne htie ⊢
  obtain ⟨hlower, hupper⟩ := Int.floor_eq_iff.mp hn
  -- the number is in the middle between the two
  have hmiddle : (m : ℚ) + n = 2 * s := by
    rcases abs_eq_abs.mp htie with hsame | hopposite
    · exact absurd (by exact_mod_cast sub_right_injective hsame) hne
    · linarith
  have hsum : 0 ≤ m + n := by
    have hcast : (0 : ℚ) ≤ (m : ℚ) + n := by linarith
    exact_mod_cast hcast
  have hbelow : n ≤ m + 1 := by
    have hcast : (n : ℚ) ≤ m + 1 := by linarith
    exact_mod_cast hcast
  have habove : m < n + 1 := by
    have hcast : (m : ℚ) < n + 1 := by linarith
    exact_mod_cast hcast
  rw [abs_of_nonneg (by omega), abs_of_nonneg (by omega)]
  omega

theorem isNearest_atPlace_of_nonneg (place : Int) (hx : 0 ≤ x) :
    IsNearest place x (Rounding.halfAway.atPlace place x) := by
  have hten := Decimal.ten_zpow_pos place
  have hs : 0 ≤ x / 10 ^ place := div_nonneg hx hten.le
  have hdistance : ∀ m : ℤ, |x - m * 10 ^ place| = |x / 10 ^ place - m| * 10 ^ place := by
    intro m
    conv_lhs => rw [← div_mul_cancel₀ x hten.ne', ← sub_mul, abs_mul, abs_of_pos hten]
  have hnearby : Rounding.halfAway.nearby (x / 10 ^ place) = ⌊x / 10 ^ place + 1 / 2⌋ :=
    Rounding.nearby_of_nonneg .halfAway hs
  rw [Rounding.atPlace, hnearby]
  refine ⟨⟨_, rfl⟩, ?_, ?_⟩
  · intro m
    rw [hdistance, hdistance, ← round_eq]
    exact mul_le_mul_of_nonneg_right (round_le _ m) hten.le
  · intro m hne htie
    rw [hdistance, hdistance] at htie
    have hother : m ≠ ⌊x / 10 ^ place + 1 / 2⌋ := by
      rintro rfl
      exact hne rfl
    have hlt := abs_lt_floor_of_tie hs hother (mul_right_cancel₀ hten.ne' htie)
    rw [abs_multiple, abs_multiple]
    exact mul_lt_mul_of_pos_right (by exact_mod_cast hlt) hten

end Nearest

/-! ## The modes -/

namespace Rounding

variable (mode : Rounding)

theorem atPlace_neg (place : Int) (x : ℚ) : mode.atPlace place (-x) = -mode.atPlace place x := by
  rw [atPlace, atPlace, neg_div, nearby_neg, Int.cast_neg, neg_mul]

theorem rounds_atPlace_of_nonneg (place : Int) {x : ℚ} (hx : 0 ≤ x) :
    mode.Rounds place x (mode.atPlace place x) := by
  cases mode with
  | truncate =>
      obtain ⟨hnonneg, hle, hlt⟩ := truncate_atPlace_bounds place hx
      rw [Rounds]
      refine ⟨⟨_, rfl⟩, ?_, ?_, mul_nonneg hx hnonneg⟩
      · rwa [abs_of_nonneg hnonneg, abs_of_nonneg hx]
      · rwa [abs_of_nonneg hnonneg, abs_of_nonneg hx]
  | halfAway => exact isNearest_atPlace_of_nonneg place hx

variable {mode} in
theorem Rounds.neg {place : Int} {x y : ℚ} (h : mode.Rounds place x y) :
    mode.Rounds place (-x) (-y) := by
  cases mode with
  | truncate => exact IsCut.neg h
  | halfAway => exact IsNearest.neg h

/-- **A rounding at a place does what its mode says**, with both signs. -/
theorem rounds_atPlace (place : Int) (x : ℚ) : mode.Rounds place x (mode.atPlace place x) := by
  rcases le_total 0 x with hpos | hneg
  · exact mode.rounds_atPlace_of_nonneg place hpos
  · have hopposite := (mode.rounds_atPlace_of_nonneg place (neg_nonneg.mpr hneg)).neg
    rwa [atPlace_neg, neg_neg, neg_neg] at hopposite

end Rounding

namespace Decimal

variable {a a' b b' : Decimal} {p : Int}

/-! ## Quotients -/

/-- A division in a mode that is given has the quotient in this mode as its result. -/
theorem divide_name (ctx : Context) (a : Decimal) (hb : b.toRat ≠ 0) (hp : p < 0)
    (mode : Rounding) :
    a.divide ctx b (.int p) (.text mode.name) = .ok (a.quotient b p mode) :=
  divide_eq_quotient a hb (ctx.resolvePrecision_int hp) (ctx.resolveRounding_name mode)

/-- **A division rounds the exact quotient** at the smaller of the precision and the
difference of the exponents: cut toward zero, or to the nearest multiple with ties going away
from zero.  The quotient has this place as its exponent, unless it is zero. -/
theorem divide_rounds (ctx : Context) (a : Decimal) (hb : b.toRat ≠ 0) (hp : p < 0)
    (mode : Rounding) :
    let place := min (a.exponent - b.exponent) p
    ∃ q, a.divide ctx b (.int p) (.text mode.name) = .ok q ∧ (q = zero ∨ q.exponent = place) ∧
      mode.Rounds place (a.toRat / b.toRat) q.toRat := by
  intro place
  refine ⟨a.quotient b p mode, divide_name ctx a hb hp mode,
    quotient_eq_zero_or_exponent a b p mode, ?_⟩
  rw [toRat_quotient a hb]
  exact mode.rounds_atPlace place _

/-- A negative tie: the quotient of `-1` and `80` at the third place. -/
theorem divide_rounds_tie :
    (⟨8, 1⟩ : Decimal).toRat ≠ 0 ∧
      divide (Context.initial {}) ⟨-1, 0⟩ ⟨8, 1⟩ (.int (-3)) (.text "half_away") =
        .ok ⟨-13, -3⟩ ∧
      IsNearest (-3) ((⟨-1, 0⟩ : Decimal).toRat / (⟨8, 1⟩ : Decimal).toRat)
        (⟨-13, -3⟩ : Decimal).toRat := by
  have hb : (⟨8, 1⟩ : Decimal).toRat ≠ 0 := by norm_num [toRat]
  have hquotient : divide (Context.initial {}) ⟨-1, 0⟩ ⟨8, 1⟩ (.int (-3)) (.text "half_away") =
      .ok ⟨-13, -3⟩ := eq_ok_of_toOption (by decide)
  obtain ⟨q, hq, -, hrounds⟩ :=
    divide_rounds (Context.initial {}) ⟨-1, 0⟩ hb (by decide : (-3 : Int) < 0) .halfAway
  obtain rfl : (⟨-13, -3⟩ : Decimal) = q := Except.ok.inj (hquotient.symm.trans hq)
  exact ⟨hb, hquotient, hrounds⟩

/-! ## Quotients that are cut again -/

/-- Cutting a number at a place is a cut. -/
theorem isCut_truncate (a : Decimal) (place : Int) :
    IsCut place a.toRat (a.truncate place).toRat := by
  rw [toRat_truncate]
  exact Rounding.truncate.rounds_atPlace place a.toRat

/-- A quotient that is cut at the precision once more is the exact quotient, cut there. -/
theorem isCut_truncate_quotient (a : Decimal) (hb : b.toRat ≠ 0) (p : Int) :
    IsCut p (a.toRat / b.toRat) ((a.quotient b p .truncate).truncate p).toRat := by
  have hquotient : IsCut (a.quotientPlace b p) (a.toRat / b.toRat)
      (a.quotient b p .truncate).toRat := by
    rw [toRat_quotient a hb]
    exact Rounding.truncate.rounds_atPlace _ _
  exact hquotient.trans (isCut_truncate _ p) (min_le_right _ _)

/-- **Quotients cut at the precision do not depend on forms.**  Divisions of equal numbers may
keep different digits beyond the precision, and cut there they are equal: both are the exact
quotient, cut toward zero at the precision. -/
theorem truncate_divide_congr (ctx : Context) (ha : a.equal a' = true) (hb : b.equal b' = true)
    (hne : b.toRat ≠ 0) (hp : p < 0) :
    ∃ q q', a.divide ctx b (.int p) (.text "truncate") = .ok q ∧
      a'.divide ctx b' (.int p) (.text "truncate") = .ok q' ∧
      (q.truncate p).equal (q'.truncate p) = true ∧
      IsCut p (a.toRat / b.toRat) (q.truncate p).toRat ∧
      IsCut p (a'.toRat / b'.toRat) (q'.truncate p).toRat := by
  have hdividend := (equal_iff a a').mp ha
  have hdivisor := (equal_iff b b').mp hb
  have hne' : b'.toRat ≠ 0 := hdivisor ▸ hne
  have hcut := isCut_truncate_quotient a hne p
  have hcut' := isCut_truncate_quotient a' hne' p
  refine ⟨_, _, divide_name ctx a hne hp .truncate, divide_name ctx a' hne' hp .truncate, ?_,
    hcut, hcut'⟩
  rw [← hdividend, ← hdivisor] at hcut'
  exact (equal_iff _ _).mpr (hcut.eq hcut')

/-- A third, of one in two forms: three digits are kept of the one, and one of the other. -/
theorem truncate_divide_congr_third :
    (⟨1000, -3⟩ : Decimal).equal one = true ∧ (⟨3, 0⟩ : Decimal).equal ⟨3, 0⟩ = true ∧
      divide (Context.initial {}) ⟨1000, -3⟩ ⟨3, 0⟩ (.int (-1)) (.text "truncate") =
        .ok ⟨333, -3⟩ ∧
      divide (Context.initial {}) one ⟨3, 0⟩ (.int (-1)) (.text "truncate") = .ok ⟨3, -1⟩ ∧
      (truncate ⟨333, -3⟩ (-1)).equal (truncate ⟨3, -1⟩ (-1)) = true := by
  have hform : (⟨1000, -3⟩ : Decimal).equal one = true := by decide
  have hdivisor : (⟨3, 0⟩ : Decimal).equal ⟨3, 0⟩ = true := by decide
  have hne : (⟨3, 0⟩ : Decimal).toRat ≠ 0 := by norm_num [toRat]
  have hlong : divide (Context.initial {}) ⟨1000, -3⟩ ⟨3, 0⟩ (.int (-1)) (.text "truncate") =
      .ok ⟨333, -3⟩ := eq_ok_of_toOption (by decide)
  have hshort : divide (Context.initial {}) one ⟨3, 0⟩ (.int (-1)) (.text "truncate") =
      .ok ⟨3, -1⟩ := eq_ok_of_toOption (by decide)
  obtain ⟨q, q', hq, hq', hequal, -, -⟩ :=
    truncate_divide_congr (Context.initial {}) hform hdivisor hne (by decide : (-1 : Int) < 0)
  obtain rfl : (⟨333, -3⟩ : Decimal) = q := Except.ok.inj (hlong.symm.trans hq)
  obtain rfl : (⟨3, -1⟩ : Decimal) = q' := Except.ok.inj (hshort.symm.trans hq')
  exact ⟨hform, hdivisor, hlong, hshort, hequal⟩

end Decimal

end DecimalCalc
