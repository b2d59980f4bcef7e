import DecimalCalc.Decimal.Power
import DecimalCalc.Proofs.Decimal.PlaceRounding
import DecimalCalc.Proofs.Outcome
/-!
# Integral powers

A power with a natural exponent is exact or refused, in every form of the exponent
(`Decimal.power_ends_of_nat`).  It is refused exactly where the exponent is above its limit or
the result would have too many digits (`PowerRefusal`, `Decimal.integralPower_eq_error_iff`),
and computed within these limits (`Decimal.exists_power`).  A negative exponent asks for the
reciprocal of the positive power (`Decimal.outcome_power_of_neg`).
-/

namespace DecimalCalc

open Numeral

/-- The refusals of a power with an integer as its exponent: an exponent above the limit, or a
result of too many digits.  An exponent too long to be shown in the message is a fault. -/
inductive PowerRefusal (s : Settings) (base : Decimal) (power : Int) : Failure → Prop where
  | exponent (hlimit : s.maxIntegerPower < power)
      (hshown : power.natAbs < tenTo Fault.longestNumeral) :
      PowerRefusal s base power (.error (.exponentTooLarge (intText power) s.maxIntegerPower))
  | unwritten (hlimit : s.maxIntegerPower < power)
      (hlong : tenTo Fault.longestNumeral ≤ power.natAbs) :
      PowerRefusal s base power (.fault .numeralTooLong)
  | result (hlimit : power ≤ s.maxIntegerPower)
      (hdigits : s.maxResultDigits < (base.bitLength : Int) * power * 31 / 100) :
      PowerRefusal s base power
        (.error (.resultTooLarge base.plainText (intText power) s.maxResultDigits))

/-! ## Exact powers -/

namespace Decimal

/-- An integer is shown by its numeral, or its numeral is too long. -/
theorem shownInt_cases (i : Int) :
    i.natAbs < tenTo Fault.longestNumeral ∧ shownInt i = .ok (intText i) ∨
      tenTo Fault.longestNumeral ≤ i.natAbs ∧ shownInt i = .error (.fault .numeralTooLong) := by
  unfold shownInt
  split
  · next h => exact .inl ⟨h, rfl⟩
  · next h => exact .inr ⟨Nat.not_lt.mp h, rfl⟩

section Limits

variable {s : Settings} {i : Int}

/-- An exponent above the limit is refused, and shown in the refusal. -/
theorem integralPower_of_lt (h : s.maxIntegerPower < i) (base : Decimal) :
    integralPower s base i = shownInt i >>= fun text =>
      .error (.error (.exponentTooLarge text s.maxIntegerPower)) := by
  rw [integralPower, if_pos h]
  cases shownInt_cases i with
  | inl hshown => rw [hshown.2]; rfl
  | inr hlong => rw [hlong.2]; rfl

/-- With an exponent within the limit, the power is refused where its estimated size is
above the limit on digits. -/
theorem integralPower_of_le (h : i ≤ s.maxIntegerPower) (base : Decimal) :
    integralPower s base i =
      if s.maxResultDigits < (base.bitLength : Int) * i * 31 / 100 then
        .error (.error (.resultTooLarge base.plainText (intText i) s.maxResultDigits))
      else .ok (ofParts (base.coefficient.pow i.toNat) (base.exponent * i)) := by
  rw [integralPower, if_neg (Int.not_lt.mpr h)]
  split
  · rfl
  · rfl

/-- A power that is returned has passed the guard on its size. -/
theorem integralPower_eq_ok {base r : Decimal} (h : integralPower s base i = .ok r) :
    (base.bitLength : Int) * i * 31 / 100 ≤ s.maxResultDigits ∧
      r = ofParts (base.coefficient.pow i.toNat) (base.exponent * i) := by
  by_cases hlimit : s.maxIntegerPower < i
  · rw [integralPower_of_lt hlimit, bind_eq_ok_iff] at h
    obtain ⟨_, _, h⟩ := h
    cases h
  · rw [integralPower_of_le (Int.not_lt.mp hlimit)] at h
    split at h
    · cases h
    · next hguard => exact ⟨Int.not_lt.mp hguard, (Except.ok.inj h).symm⟩

/-- An integral power fails exactly with its refusals. -/
theorem integralPower_eq_error_iff {base : Decimal} {f : Failure} :
    integralPower s base i = .error f ↔ PowerRefusal s base i f := by
  constructor
  · intro h
    by_cases hlimit : s.maxIntegerPower < i
    · rw [integralPower_of_lt hlimit] at h
      cases shownInt_cases i with
      | inl hshown =>
          rw [hshown.2] at h
          cases h
          exact .exponent hlimit hshown.1
      | inr hlong =>
          rw [hlong.2] at h
          cases h
          exact .unwritten hlimit hlong.1
    · rw [integralPower_of_le (Int.not_lt.mp hlimit)] at h
      split at h
      · next hdigits =>
          cases h
          exact .result (Int.not_lt.mp hlimit) hdigits
      · cases h
  · rintro (⟨hlimit, hshown⟩ | ⟨hlimit, hlong⟩ | ⟨hlimit, hdigits⟩)
    · rw [integralPower_of_lt hlimit, shownInt, if_pos hshown, ok_bind]
    · rw [integralPower_of_lt hlimit, shownInt, if_neg (Nat.not_lt.mpr hlong), error_bind]
    · rw [integralPower_of_le hlimit, if_pos hdigits]

/-- A natural power is exact or refused. -/
theorem integralPower_ends (s : Settings) (a : Decimal) (n : Nat) :
    Ends (fun r => r.toRat = a.toRat ^ n) (PowerRefusal s a n) (integralPower s a n) := by
  cases h : integralPower s a n with
  | error f => exact integralPower_eq_error_iff.mp h
  | ok r =>
      obtain ⟨-, rfl⟩ := integralPower_eq_ok h
      exact a.toRat_pow n

end Limits

/-! ## The sign of the exponent -/

section Sign

variable {ctx : Context} {e : Decimal}

/-- The zeroth power is one, also of zero. -/
theorem power_of_zero (he : e.toRat = 0) (base : Decimal) (precision : Value) :
    base.power ctx e precision = pure one := by
  rw [power, powerWith, if_pos ((isZero_iff e).mpr he)]

/-- A positive exponent asks for no reciprocal. -/
theorem power_of_pos (he : 0 < e.toRat) (base : Decimal) (precision : Value) :
    base.power ctx e precision = positivePower ctx base e precision := by
  have hzero : ¬ e.isZero = true := fun h => he.ne' ((isZero_iff e).mp h)
  have hneg : ¬ e.isNegative = true := fun h => he.not_gt ((isNegative_iff e).mp h)
  rw [power, powerWith, if_neg hzero, if_neg hneg]
  rfl

/-- **A negative exponent** asks for the reciprocal of the positive power, in the rounding
mode of the settings. -/
theorem outcome_power_of_neg (he : e.toRat < 0) (base : Decimal) (precision : Value) :
    (base.power ctx e precision).outcome =
      (base.power ctx e.neg precision).outcome >>= fun r => one.divide ctx r precision .none := by
  have hzero : ¬ e.isZero = true := fun h => he.ne ((isZero_iff e).mp h)
  rw [power_of_pos (neg_toRat_pos he), power, powerWith, if_neg hzero,
    if_pos ((isNegative_iff e).mpr he), Traced.outcome_bind]
  rfl

/-- A positive integral exponent asks for the integral power, in every form. -/
theorem outcome_power_of_int {i : Int} (hi : e.toRat = i) (hpos : 0 < i) (base : Decimal)
    (precision : Value) :
    (base.power ctx e precision).outcome = integralPower ctx.settings base i := by
  have he : 0 < e.toRat := by
    rw [hi]
    exact_mod_cast hpos
  have hinteger : e.isInteger = true := (isInteger_iff e).mpr ⟨i, hi⟩
  have hwhole : e.integer.coefficient = i := by
    rw [coefficient_integer, hi, Rounding.nearby_intCast]
  rw [power_of_pos he, positivePower, positivePowerWith]
  simp only [hinteger, if_true, hwhole, Traced.outcome_ofExcept]

/-- Within the limits an integral power is computed, the same for all forms of the exponent. -/
theorem exists_power {i : Int} {b : Decimal} (hb : b.toRat ≠ 0) (hpos : 0 < i)
    (hpower : i ≤ ctx.settings.maxIntegerPower)
    (hsize : (b.bitLength : Int) * i * 31 / 100 ≤ ctx.settings.maxResultDigits) :
    ∃ r : Decimal, r.toRat = b.toRat ^ i ∧ r.exponent = b.exponent * i ∧
      ∀ (n : Decimal) (precision : Value), n.toRat = i →
        (b.power ctx n precision).outcome = .ok r := by
  obtain ⟨k, rfl⟩ : ∃ k : Nat, i = k := ⟨i.toNat, by omega⟩
  have hcoefficient : b.coefficient.pow k ≠ 0 := by
    intro hzero
    apply hb
    have hbase : b.coefficient = 0 := eq_zero_of_pow_eq_zero hzero
    rw [toRat, hbase, Int.cast_zero, zero_mul]
  refine ⟨ofParts (b.coefficient.pow k) (b.exponent * k), ?_, ?_, fun n precision hi => ?_⟩
  · rw [toRat_pow, zpow_natCast]
  · rw [ofParts, if_neg hcoefficient]
  · rw [outcome_power_of_int hi hpos, integralPower_of_le hpower,
      if_neg (Int.not_lt.mpr hsize)]
    rfl

end Sign

/-- **A power with a natural exponent** is exact or refused, in every form of the exponent;
the zeroth power is one, also of zero, and never refused. -/
theorem power_ends_of_nat (ctx : Context) (a : Decimal) {e : Decimal} {n : Nat}
    (hn : e.toRat = n) (precision : Value) :
    Ends (fun r => r.toRat = a.toRat ^ n) (fun f => 0 < n ∧ PowerRefusal ctx.settings a n f)
      (a.power ctx e precision).outcome := by
  rcases Nat.eq_zero_or_pos n with rfl | hpos
  · rw [power_of_zero (by rw [hn, Nat.cast_zero])]
    change one.toRat = a.toRat ^ 0
    rw [pow_zero, toRat_one]
  · have hint : e.toRat = ((n : Int) : ℚ) := by rw [hn, Int.cast_natCast]
    rw [outcome_power_of_int hint (by omega)]
    exact (integralPower_ends ctx.settings a n).mono_error fun _ h => ⟨hpos, h⟩

end Decimal

end DecimalCalc
