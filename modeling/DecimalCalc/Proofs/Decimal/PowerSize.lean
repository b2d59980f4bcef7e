import DecimalCalc.Proofs.Decimal.BitLength
import DecimalCalc.Proofs.Decimal.CanonicalText
import DecimalCalc.Proofs.Decimal.IntegralPower
import Mathlib.Data.Nat.Prime.Int
/-!
# The size of integral powers

An integral power is refused where the bits of its coefficient, as they are estimated from
those of the base, are more than the limit on digits allows.  The estimate counts enough
digits for the coefficient (`natAbs_pow_lt`), but it does not look at the exponent of the
base: the places after the point and the zeros that a positive exponent stands for are not
counted.

* `writtenDigits_eq` counts the digits of plain text on the normal form.
* `normalize_pow` is the reason why this can be done for a power before it is computed: a
  power of a normal form is a normal form.
* `power_writtenDigits` says which powers are within the limit.
-/

namespace DecimalCalc.Decimal

open Numeral Text

/-! ## The digits of plain text -/

/-- The number of digits in the plain text of a number. -/
def writtenDigits (a : Decimal) : Nat := a.plainText.toList.countP isDigit

/-- A point is not counted. -/
theorem countP_pointed (fraction : List Char) :
    (pointed fraction).countP isDigit = fraction.countP isDigit := by
  cases fraction with
  | nil => rfl
  | cons c cs => rw [pointed, List.countP_cons_of_neg (by decide)]

/-- A sign is not counted. -/
theorem countP_signed (a : Decimal) (cs : List Char) :
    (a.signed cs).countP isDigit = cs.countP isDigit := by
  unfold signed
  split
  · rw [List.countP_cons_of_neg (by decide)]
  · rfl

/-- **The digits of plain text** are those of the coefficient of the normal form, or one
before the point and its places, whichever are more. -/
theorem writtenDigits_eq (a : Decimal) :
    a.writtenDigits = max (natChars a.normalize.coefficient.natAbs).length
      ((-a.normalize.exponent).toNat + 1) := by
  obtain ⟨whole, fraction, hspells, htext, hdigits⟩ :=
    exists_spells_placePoint a.normalize_isNormal.exponent_le
  have hall : (whole ++ fraction).countP isDigit = (whole ++ fraction).length := by
    rw [List.countP_eq_length]
    exact fun c hc => isDigit_of_isNumeralChar (hspells.chars c hc)
  rw [writtenDigits, toList_plainText, htext, countP_signed, List.countP_append, countP_pointed,
    ← List.countP_append, hall, hdigits, List.length_append, List.length_replicate]
  omega

/-- All digits before the point are written: a number that is not below a power of ten has
more digits than its exponent. -/
theorem lt_writtenDigits {a : Decimal} {k : Nat} (h : 10 ^ k ≤ |a.toRat|) :
    k < a.writtenDigits := by
  have hunit : (10 : ℚ) ^ a.normalize.exponent ≤ 1 :=
    zpow_le_one_of_nonpos₀ (by norm_num) a.normalize_isNormal.exponent_le
  have hcoefficient : 10 ^ k ≤ a.normalize.coefficient.natAbs := by
    have hle : (10 : ℚ) ^ k ≤ a.normalize.coefficient.natAbs := by
      calc (10 : ℚ) ^ k ≤ |a.normalize.toRat| := by rwa [toRat_normalize]
        _ = |(a.normalize.coefficient : ℚ)| * 10 ^ a.normalize.exponent := by
            rw [toRat, abs_mul, abs_of_pos (ten_zpow_pos _)]
        _ ≤ |(a.normalize.coefficient : ℚ)| := mul_le_of_le_one_right (abs_nonneg _) hunit
        _ = a.normalize.coefficient.natAbs := by rw [Nat.cast_natAbs, Int.cast_abs]
    exact_mod_cast hle
  rw [writtenDigits_eq]
  by_contra hfew
  have hlength : (natChars a.normalize.coefficient.natAbs).length ≤ k := by omega
  exact hcoefficient.not_gt ((length_natChars_le_iff (by omega)).mp hlength)

/-- Equal numbers are written with the same digits. -/
theorem writtenDigits_congr {a b : Decimal} (h : a.toRat = b.toRat) :
    a.writtenDigits = b.writtenDigits := by
  rw [writtenDigits, writtenDigits, (plainText_eq_iff a b).mpr h]

/-! ## Powers of normal forms -/

section Normal

variable {a : Decimal} {n : Nat}

/-- Ten divides a power only if it divides the base, since it is no multiple of a square. -/
theorem ten_dvd_of_dvd_pow {c : Int} (h : (10 : Int) ∣ c ^ n) : (10 : Int) ∣ c := by
  have hprime : Prime (5 : Int) := Int.prime_ofNat_iff.mpr Nat.prime_five
  have htwo : (2 : Int) ∣ c := Int.prime_two.dvd_of_dvd_pow (Dvd.dvd.trans (by decide) h)
  have hfive : (5 : Int) ∣ c := hprime.dvd_of_dvd_pow (Dvd.dvd.trans (by decide) h)
  omega

theorem IsNormal.pow (h : a.IsNormal) (n : Nat) :
    IsNormal ⟨a.coefficient ^ n, a.exponent * n⟩ := by
  refine ⟨Int.mul_nonpos_of_nonpos_of_nonneg h.exponent_le (Int.natCast_nonneg n), ?_⟩
  rcases h.reduced with hzero | hreduced
  · left
    dsimp only
    rw [hzero, Int.zero_mul]
  · exact .inr fun hdvd => hreduced (ten_dvd_of_dvd_pow hdvd)

/-- **The normal form of a power** is the power of the normal form. -/
theorem normalize_pow (a : Decimal) (n : Nat) :
    (ofParts (a.coefficient.pow n) (a.exponent * n)).normalize =
      ⟨a.normalize.coefficient ^ n, a.normalize.exponent * n⟩ := by
  apply (normalize_isNormal _).eq_of_toRat_eq (a.normalize_isNormal.pow n)
  rw [toRat_normalize, toRat_pow, ← toRat_normalize a]
  simp only [toRat, Int.cast_pow, mul_pow, zpow_mul, zpow_natCast]

end Normal

/-- The digits of a power, in terms of the normal form of the base. -/
theorem writtenDigits_pow (a : Decimal) (n : Nat) :
    (ofParts (a.coefficient.pow n) (a.exponent * n)).writtenDigits =
      max (natChars (a.normalize.coefficient ^ n).natAbs).length
        ((-(a.normalize.exponent * n)).toNat + 1) := by
  rw [writtenDigits_eq, normalize_pow]

/-! ## The guard -/

section Guard

variable {ctx : Context} {base exponent : Decimal} {i : Int}

/-- **The estimate counts enough digits for the coefficient**, where the limit is not so
small that rounding the estimate down matters. -/
theorem natAbs_pow_lt {limit : Int} (hlimit : 34 ≤ limit) {n : Nat} (hn : 0 < n)
    (hguard : (base.bitLength : Int) * n * 31 / 100 ≤ limit) :
    base.coefficient.natAbs ^ n < 10 ^ limit.toNat := by
  have hbits : base.bitLength * n * 30103 ≤ limit.toNat * 100000 := by
    generalize hbits : base.bitLength * n = bits
    have hcast : (base.bitLength : Int) * n = bits := by exact_mod_cast hbits
    rw [hcast] at hguard
    omega
  calc base.coefficient.natAbs ^ n
      < (2 ^ base.bitLength) ^ n :=
        Nat.pow_lt_pow_left (natAbs_lt_two_pow_bitLength base) hn.ne'
    _ = 2 ^ (base.bitLength * n) := (pow_mul 2 _ n).symm
    _ ≤ 10 ^ limit.toNat := two_pow_le_ten_pow hbits

/-- The coefficient of a power that passes the guard, as it is written: its digits are within
the limit, but for the zeros of a positive exponent. -/
theorem length_pow_le {limit : Int} (hlimit : 34 ≤ limit) {n : Nat} (hn : 0 < n)
    (hguard : (base.bitLength : Int) * n * 31 / 100 ≤ limit) :
    (natChars (base.normalize.coefficient ^ n).natAbs).length ≤
      limit.toNat + base.exponent.toNat * n := by
  rw [length_natChars_le_iff (by omega), Int.natAbs_pow]
  calc base.normalize.coefficient.natAbs ^ n
      ≤ (base.coefficient.natAbs * tenTo base.exponent.toNat) ^ n :=
        Nat.pow_le_pow_left base.natAbs_coefficient_normalize n
    _ = base.coefficient.natAbs ^ n * 10 ^ (base.exponent.toNat * n) := by
        rw [mul_pow, pow_mul]
        rfl
    _ < 10 ^ limit.toNat * 10 ^ (base.exponent.toNat * n) :=
        Nat.mul_lt_mul_of_pos_right (natAbs_pow_lt hlimit hn hguard) (Nat.pow_pos (by decide))
    _ = 10 ^ (limit.toNat + base.exponent.toNat * n) := (pow_add 10 _ _).symm

/-- The digits that the guard leaves to a power: as many as the limit, with the zeros of a
positive exponent, or the places after the point with a digit before it. -/
def sizeBound (limit : Int) (base : Decimal) (i : Int) : Int :=
  max (limit + max (base.exponent * i) 0) (1 - base.normalize.exponent * i)

/-- The bound is the limit itself, where the exponent of the base adds no zeros and fewer
places than the limit. -/
theorem sizeBound_eq {limit : Int} (hpos : 0 < i) (hexponent : base.exponent ≤ 0)
    (hplaces : -limit < base.normalize.exponent * i) : base.sizeBound limit i = limit := by
  have hzeros : base.exponent * i ≤ 0 :=
    Int.mul_nonpos_of_nonpos_of_nonneg hexponent (Int.le_of_lt hpos)
  unfold sizeBound
  omega

/-- **A power that passes the guard is within the bound.** -/
theorem writtenDigits_pow_le {limit : Int} (hlimit : 34 ≤ limit) {n : Nat} (hn : 0 < n)
    (hguard : (base.bitLength : Int) * n * 31 / 100 ≤ limit) :
    ((ofParts (base.coefficient.pow n) (base.exponent * n)).writtenDigits : Int) ≤
      base.sizeBound limit n := by
  have hlength := length_pow_le hlimit hn hguard
  have hzeros : ((base.exponent.toNat * n : Nat) : Int) = max (base.exponent * n) 0 := by
    rw [Nat.cast_mul, Int.toNat_eq_max, max_mul_of_nonneg _ _ (Int.natCast_nonneg n), zero_mul]
  rw [writtenDigits_pow, sizeBound]
  omega

/-- **How long an integral power is written.**  A power that is returned is within the bound
of the guard.  That is the limit on digits for a base without a positive exponent whose
power has fewer places than the limit.  A power that would be longer than its bound is
refused for its size, unless its exponent is refused before. -/
theorem power_writtenDigits (hlimit : 34 ≤ ctx.settings.maxResultDigits)
    (hi : exponent.toRat = i) (hpos : 0 < i) (base : Decimal) (precision : Value) :
    (∀ r, (base.power ctx exponent precision).outcome = .ok r →
      (r.writtenDigits : Int) ≤ base.sizeBound ctx.settings.maxResultDigits i) ∧
    (base.exponent ≤ 0 → -ctx.settings.maxResultDigits < base.normalize.exponent * i →
      base.sizeBound ctx.settings.maxResultDigits i = ctx.settings.maxResultDigits) ∧
    (i ≤ ctx.settings.maxIntegerPower → ∀ r : Decimal, r.toRat = base.toRat ^ i →
      base.sizeBound ctx.settings.maxResultDigits i < r.writtenDigits →
        (base.power ctx exponent precision).outcome = .error (.error
          (.resultTooLarge base.plainText (intText i) ctx.settings.maxResultDigits))) ∧
    (ctx.settings.maxIntegerPower < i →
      (base.power ctx exponent precision).outcome = shownInt i >>= fun text =>
        .error (.error (.exponentTooLarge text ctx.settings.maxIntegerPower))) := by
  obtain ⟨n, rfl⟩ : ∃ n : Nat, i = n := ⟨i.toNat, by omega⟩
  have hn : 0 < n := by omega
  rw [outcome_power_of_int hi hpos]
  refine ⟨?_, sizeBound_eq hpos, ?_, ?_⟩
  · intro r hr
    obtain ⟨hguard, rfl⟩ := integralPower_eq_ok hr
    exact writtenDigits_pow_le hlimit hn hguard
  · intro hpower r hr hlong
    rw [integralPower_of_le hpower, if_pos]
    by_contra hguard
    rw [zpow_natCast, ← base.toRat_pow] at hr
    rw [writtenDigits_congr hr] at hlong
    exact hlong.not_ge (writtenDigits_pow_le hlimit hn (Int.not_lt.mp hguard))
  · exact fun hpower => integralPower_of_lt hpower base

/-- The square of one and a half, with the exponent in another form. -/
theorem power_writtenDigits_square :
    (power (Context.initial {}) ⟨15, -1⟩ ⟨20, -1⟩ (.int (-4))).outcome = .ok ⟨225, -2⟩ ∧
      (⟨225, -2⟩ : Decimal).writtenDigits ≤ 1000000 := by
  have hint : (⟨20, -1⟩ : Decimal).toRat = (2 : Int) := by norm_num [toRat]
  have hlimit : 34 ≤ (Context.initial {}).settings.maxResultDigits := by decide
  have hsquare : (power (Context.initial {}) ⟨15, -1⟩ ⟨20, -1⟩ (.int (-4))).outcome =
      .ok ⟨225, -2⟩ := eq_ok_of_toOption (by decide +kernel)
  obtain ⟨hbound, hexact, -, -⟩ :=
    power_writtenDigits hlimit hint (by decide) ⟨15, -1⟩ (.int (-4))
  have hle := hbound _ hsquare
  have hnormal : IsNormal ⟨15, -1⟩ := ⟨by decide, .inr (by decide)⟩
  rw [hexact (by decide) (by rw [hnormal.normalize_eq]; decide)] at hle
  exact ⟨hsquare, Int.ofNat_le.mp hle⟩

/-- **Not every power above the limit on digits is refused for its size.**  The exponent of
`10 ^ 1000001` is refused before, and the places of `0.1 ^ 2000000`, asked for as a power of
`1e-20`, are not counted. -/
theorem power_writtenDigits_above_limit :
    ((power (Context.initial {}) ⟨10, 0⟩ ⟨1000001, 0⟩ (.int (-4))).outcome =
        .error (.error (.exponentTooLarge "1000001" 100000)) ∧
      ∀ r : Decimal, r.toRat = (⟨10, 0⟩ : Decimal).toRat ^ 1000001 → 1000000 < r.writtenDigits) ∧
    ∃ r, (power (Context.initial {}) ⟨1, -20⟩ ⟨100000, 0⟩ (.int (-4))).outcome = .ok r ∧
      1000000 < r.writtenDigits := by
  have hmillion : (⟨1000001, 0⟩ : Decimal).toRat = (1000001 : Int) := by norm_num [toRat]
  have hshown : shownInt 1000001 = .ok "1000001" := eq_ok_of_toOption (by decide +kernel)
  have hbeyond : (Context.initial {}).settings.maxIntegerPower < 1000001 := by decide
  have hint : (⟨100000, 0⟩ : Decimal).toRat = ((100000 : Nat) : Int) := by norm_num [toRat]
  have hwithin : ((100000 : Nat) : Int) ≤ (Context.initial {}).settings.maxIntegerPower := by decide
  refine ⟨⟨?_, ?_⟩, ofParts ((1 : Int).pow 100000) (-20 * (100000 : Nat)), ?_, ?_⟩
  · rw [outcome_power_of_int hmillion (by decide), integralPower_of_lt hbeyond, hshown]
    rfl
  · intro r hr
    have hten : (⟨10, 0⟩ : Decimal).toRat = 10 := by norm_num [toRat]
    have hlt : 1000001 < r.writtenDigits := by
      apply lt_writtenDigits
      rw [hr, hten, abs_of_pos (pow_pos (by norm_num) _)]
    exact Nat.lt_of_succ_lt hlt
  · rw [outcome_power_of_int hint (by decide), integralPower_of_le hwithin, if_neg (by decide)]
    rfl
  · have hnormal : IsNormal ⟨1, -20⟩ := ⟨by decide, .inr (by decide)⟩
    have hdigits := writtenDigits_pow ⟨1, -20⟩ 100000
    rw [hnormal.normalize_eq] at hdigits
    rw [hdigits]
    exact Nat.lt_of_lt_of_le (by decide) (Nat.le_max_right _ _)

end Guard

end DecimalCalc.Decimal
