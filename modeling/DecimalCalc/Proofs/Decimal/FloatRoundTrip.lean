import DecimalCalc.Proofs.Decimal.NearestFloat
import DecimalCalc.Proofs.Decimal.NormalForm
import DecimalCalc.Proofs.Decimal.QuotientRounding
/-!
# Floats as decimal numbers

A float is an odd number times a power of two (`parts_finite`), and a negative power of two is
one of ten times as many factors of five.  So its decimal expansion ends at the place of its
exponent, and a division at this place or a smaller one is exact (`exists_ofBinary64`).  The
float nearest to the result is the float itself: `ofValue_float_round_trip`.
-/

namespace DecimalCalc

open Numeral

/-! ## Removing factors -/

/-- A number is what is left of it, times the factors that were removed. -/
theorem removeFactor_mul_pow (p n : Nat) :
    (removeFactor p n).1 * p ^ (removeFactor p n).2 = n := by
  fun_induction removeFactor p n with
  | case1 n h rest count hrest ih =>
      rw [hrest] at ih
      rw [pow_succ, ← mul_assoc, ih]
      exact Nat.div_mul_cancel (Nat.dvd_of_mod_eq_zero h.2.2)
  | case2 n h => rw [pow_zero, mul_one]

/-- No factor is left. -/
theorem not_dvd_removeFactor {p n : Nat} (hp : 2 ≤ p) (hn : 0 < n) :
    ¬ p ∣ (removeFactor p n).1 := by
  fun_induction removeFactor p n with
  | case1 n h rest count hrest ih =>
      rw [hrest] at ih
      exact ih (Nat.div_pos (Nat.le_of_dvd hn (Nat.dvd_of_mod_eq_zero h.2.2)) (by omega))
  | case2 n h => exact fun hdvd => h ⟨hp, hn, Nat.mod_eq_zero_of_dvd hdvd⟩

namespace Binary64

/-! ## The parts of a float -/

/-- A bit pattern is decoded to a canonical number. -/
theorem isCanonical_ofBits (bits : Nat) : (ofBits bits).IsCanonical := by
  have hfraction : bits % twoTo 52 < twoTo 52 := Nat.mod_lt _ (by decide)
  have hexponent : bits / twoTo 52 % twoTo 11 < twoTo 11 := Nat.mod_lt _ (by decide)
  have hpowers : twoTo 11 = 2048 ∧ twoTo 52 + twoTo 52 = twoTo 53 := by decide
  unfold ofBits
  dsimp only
  split
  · split
    · trivial
    · trivial
  · next hmax =>
      split
      · exact ⟨by omega, le_rfl, by decide, .inr rfl⟩
      · refine ⟨by omega, ?_, ?_, .inl (by omega)⟩
        · rw [leastExponent]
          omega
        · rw [greatestExponent]
          omega

/-- **A float is its sign times an odd number times a power of two.** -/
theorem parts_finite (negative : Bool) {m : Nat} (hm : m ≠ 0) (q : Int) :
    ∃ (c : Nat) (e : Int), (finite negative m q).parts = .ok (signedInt negative 1, c, e) ∧
      Odd c ∧ c ≤ m ∧ (finite negative m q).toRat = signedInt negative 1 * c * 2 ^ e := by
  have hvalue := removeFactor_mul_pow 2 m
  have hodd := not_dvd_removeFactor le_rfl (Nat.pos_of_ne_zero hm)
  refine ⟨(removeFactor 2 m).1, q + (removeFactor 2 m).2, ?_, ?_, ?_, ?_⟩
  · cases negative <;> simp [parts, hm, signedInt]
  · exact Nat.not_even_iff_odd.mp fun heven => hodd heven.two_dvd
  · exact (Nat.le_mul_of_pos_right _ (by positivity)).trans hvalue.le
  · have hsigned : (signedInt negative m : ℚ) = signedInt negative 1 * m := by
      cases negative with
      | false => simp [signedInt]
      | true => simp [signedInt]
    have hcast : (m : ℚ) = (removeFactor 2 m).1 * 2 ^ (removeFactor 2 m).2 := by
      exact_mod_cast hvalue.symm
    rw [toRat, hsigned, zpow_add₀ (by norm_num), zpow_natCast]
    conv_lhs => rw [hcast]
    ring

end Binary64

namespace Decimal

open Binary64

variable {ctx : Context} {mode : Rounding}

/-! ## Exact expansions -/

theorem toRat_ofInt (i : Int) : (ofInt i).toRat = i := by simp [ofInt, toRat]

/-- A negative power of two is a multiple of ten to its own exponent as the place, and to
every smaller place. -/
theorem two_zpow_eq_multiple {e p : Int} (he : e < 0) (hp : p ≤ e) :
    (2 : ℚ) ^ e = (5 ^ (-e).toNat * 10 ^ (e - p).toNat : Nat) * 10 ^ p := by
  have hten : (10 : ℚ) ^ (e - p).toNat * 10 ^ p = 10 ^ e :=
    pow_mul_zpow (by norm_num) (by omega)
  have hfive : (5 : ℚ) ^ (-e).toNat * 5 ^ e = 5 ^ (0 : Int) :=
    pow_mul_zpow (by norm_num) (by omega)
  rw [zpow_zero] at hfive
  calc (2 : ℚ) ^ e = 5 ^ (-e).toNat * 5 ^ e * 2 ^ e := by rw [hfive, one_mul]
    _ = 5 ^ (-e).toNat * 10 ^ e := by rw [mul_assoc, ← mul_zpow]; norm_num
    _ = (5 ^ (-e).toNat * 10 ^ (e - p).toNat : Nat) * 10 ^ p := by
        rw [← hten]
        push_cast
        ring

theorem toRat_twoTo {e : Int} (he : 0 ≤ e) : (ofInt (twoTo e.toNat)).toRat = 2 ^ e := by
  rw [toRat_ofInt, Int.cast_natCast, twoTo_cast, ← zpow_natCast, Int.toNat_of_nonneg he]

theorem toRat_twoTo_ne_zero {e : Int} (he : 0 ≤ e) : (ofInt (twoTo e.toNat)).toRat ≠ 0 := by
  rw [toRat_twoTo he]
  exact (two_zpow_pos e).ne'

/-- **A division by a power of two is exact** at the place of the power or a smaller one. -/
theorem toRat_quotient_twoTo (c : Int) {e p : Int} (he : e < 0) (hp : p ≤ e) (mode : Rounding) :
    ((ofInt c).quotient (ofInt (twoTo (-e).toNat)) p mode).toRat = c * 2 ^ e := by
  have hnonneg : 0 ≤ -e := by omega
  have hplace : (ofInt c).quotientPlace (ofInt (twoTo (-e).toNat)) p = p := by
    rw [quotientPlace, ofInt, ofInt, sub_self]
    exact min_eq_right (by omega)
  have hmultiple : (c : ℚ) * 2 ^ e =
      (c * (5 ^ (-e).toNat * 10 ^ (e - p).toNat : Nat) : Int) * 10 ^ p := by
    rw [two_zpow_eq_multiple he hp, Int.cast_mul, Int.cast_natCast, mul_assoc]
  rw [toRat_quotient _ (toRat_twoTo_ne_zero hnonneg), hplace, toRat_twoTo hnonneg, zpow_neg,
    div_inv_eq_mul, toRat_ofInt, hmultiple, Rounding.atPlace_of_multiple]

/-- **The decimal number of a float** whose parts are known: a normal form of exactly its
value, at every precision from the exponent down. -/
theorem exists_ofBinary64 (hrounding : ctx.settings.rounding = mode.name) {x : Binary64}
    {s : Int} {c : Nat} {e p : Int} (hfinite : x.isFinite = true)
    (hparts : x.parts = .ok (s, c, e)) (hc : c ≠ 0) (hneg : p < 0) (hp : p ≤ e) :
    ∃ d, ofBinary64 ctx x (.int p) = .ok d ∧ d.IsNormal ∧ d.toRat = s * c * 2 ^ e := by
  unfold ofBinary64
  rw [hparts]
  simp only [hfinite, Bool.not_true, Bool.false_eq_true, if_false, ok_bind]
  rw [if_neg hc]
  have hproduct : ((s * c : Int) : ℚ) = s * c := by rw [Int.cast_mul, Int.cast_natCast]
  by_cases he : e < 0
  · have hnonneg : 0 ≤ -e := by omega
    rw [if_pos he, divide_eq_quotient _ (toRat_twoTo_ne_zero hnonneg)
      (ctx.resolvePrecision_int hneg) (Context.resolveRounding_default hrounding), ok_bind]
    refine ⟨_, rfl, normalize_isNormal _, ?_⟩
    rw [toRat_normalize, toRat_quotient_twoTo _ he hp, hproduct]
  · rw [if_neg he]
    refine ⟨_, rfl, isNormal_of_exponent_zero _, ?_⟩
    rw [toRat_ofInt, Int.cast_mul, hproduct, ← toRat_ofInt (twoTo e.toNat),
      toRat_twoTo (not_lt.mp he)]

/-- **A float is split and converted exactly.**  A finite float other than zero is its sign
times an odd number below `2 ^ 53` times a power of two.  As a decimal number, at every
precision from the exponent of this power down, it is a normal form of exactly its value, and
the nearest float to that is the float itself. -/
theorem ofValue_float_round_trip (hrounding : ctx.settings.rounding = mode.name) {x : Binary64}
    (hx : x.IsCanonical) (hfinite : x.isFinite = true) (hne : x.toRat ≠ 0) :
    ∃ (s : Int) (c : Nat) (e : Int), x.parts = .ok (s, c, e) ∧ (s = 1 ∨ s = -1) ∧ Odd c ∧
      c < 2 ^ 53 ∧ x.toRat = s * c * 2 ^ e ∧
      ∀ p : Int, p < 0 → p ≤ e →
        ∃ d, ofValue ctx (.float x) (.int p) = .ok d ∧ d.toRat = x.toRat ∧ d.IsNormal ∧
          d.toBinary64 = .ok x := by
  cases x with
  | finite negative m q =>
      obtain ⟨c, e, hparts, hodd, hle, hvalue⟩ :=
        parts_finite negative (significand_ne_zero hne) q
      have hc : c ≠ 0 := hodd.pos.ne'
      have hsign : signedInt negative 1 = 1 ∨ signedInt negative 1 = -1 := by
        cases negative with
        | false => exact .inl rfl
        | true => exact .inr rfl
      refine ⟨signedInt negative 1, c, e, hparts, hsign, hodd, hle.trans_lt hx.1, hvalue, ?_⟩
      intro p hneg hp
      obtain ⟨d, hd, hnormal, hexact⟩ := exists_ofBinary64 hrounding hfinite hparts hc hneg hp
      have hsame : d.toRat = (finite negative m q).toRat := hexact.trans hvalue.symm
      have hrounds := rounds_toRat hx hne
      have hrange := hrounds.isFinite_iff.mp hfinite
      rw [← hsame] at hrounds hrange
      refine ⟨d, hd, hsame, hnormal, ?_⟩
      rw [toBinary64_eq d hrounds, if_neg (fun hboth => hrange.not_ge hboth.1)]
  | infinite negative => cases hfinite
  | nan => cases hfinite

/-- The float nearest to `-0.1` has 55 places. -/
theorem ofValue_float_round_trip_tenth :
    let x := ofBits 0xbfb999999999999a
    x.isFinite = true ∧ x.toRat ≠ 0 ∧ x.parts = .ok (-1, 3602879701896397, -55) ∧
      ∃ d, ofValue (.initial {}) (.float x) (.int (-55)) = .ok d ∧
        d = ⟨-1000000000000000055511151231257827021181583404541015625, -55⟩ ∧
        d.toBinary64 = .ok x := by
  intro x
  have hfinite : x.isFinite = true := by decide +kernel
  have hx : x = finite true 7205759403792794 (-56) := by decide +kernel
  have hne : x.toRat ≠ 0 := by
    rw [hx]
    norm_num [Binary64.toRat, signedInt]
  have hparts : x.parts = .ok (-1, 3602879701896397, -55) :=
    eq_ok_of_toOption (by decide +kernel)
  have hnumber : ofValue (.initial {}) (.float x) (.int (-55)) =
      .ok ⟨-1000000000000000055511151231257827021181583404541015625, -55⟩ :=
    eq_ok_of_toOption (by decide +kernel)
  have hrounding : (Context.initial {}).settings.rounding = Rounding.truncate.name := rfl
  obtain ⟨s, c, e, hsplit, -, -, -, -, hmake⟩ :=
    ofValue_float_round_trip hrounding (isCanonical_ofBits _) hfinite hne
  obtain ⟨-, -, rfl⟩ : s = -1 ∧ c = 3602879701896397 ∧ e = -55 := by
    simpa using Except.ok.inj (hsplit.symm.trans hparts)
  obtain ⟨d, hd, -, -, hback⟩ := hmake (-55) (by decide) le_rfl
  exact ⟨hfinite, hne, hparts, d, hd, Except.ok.inj (hd.symm.trans hnumber), hback⟩

end Decimal

end DecimalCalc
