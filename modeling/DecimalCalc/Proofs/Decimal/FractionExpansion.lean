import DecimalCalc.Proofs.Decimal.FloatRoundTrip
import DecimalCalc.Proofs.Numeral.Digits
import Mathlib.Data.Nat.Cast.Field
import Mathlib.Data.Nat.Prime.Basic
/-!
# Fractions as decimal numbers

The denominator of a reduced fraction loses its factors of two, and then those of five.  Both
loops end (`removes_removeFactor`), and one is left exactly if the denominator has no other
prime factor (`exists_factors`).

Then ten to the larger of the two counts is a multiple of the denominator, and to no smaller
one: the numerator does not share the factor that there are more of, so the digit at the last
place is not zero (`Factors.isNormal_expansion`).  Every other denominator leads to a
division.  `ofValue_fraction` says so, and that the reduced fraction of a number is read as the
normal form of the number.
-/

namespace DecimalCalc

open Numeral

/-- A loop that divides by `p` as long as it divides, with what it leaves and the number of its
passes.  There are such numbers only if the loop ends. -/
inductive Removes (p : Nat) : Nat → Nat → Nat → Prop
  | done {n : Nat} (h : ¬ p ∣ n) : Removes p n n 0
  | pass {n rest count : Nat} (h : p ∣ n) (tail : Removes p (n / p) rest count) :
      Removes p n rest (count + 1)

/-- **The loop ends**, and removing factors does what it does. -/
theorem removes_removeFactor {p n : Nat} (hp : 2 ≤ p) (hn : 0 < n) :
    Removes p n (removeFactor p n).1 (removeFactor p n).2 := by
  fun_induction removeFactor p n with
  | case1 n h rest count hrest ih =>
      have hdvd : p ∣ n := Nat.dvd_of_mod_eq_zero h.2.2
      rw [hrest] at ih
      exact .pass hdvd (ih (Nat.div_pos (Nat.le_of_dvd hn hdvd) (by omega)))
  | case2 n h => exact .done fun hdvd => h ⟨hp, hn, Nat.mod_eq_zero_of_dvd hdvd⟩

/-- A denominator without a prime factor other than two and five. -/
def OnlyTwosAndFives (d : Nat) : Prop := ∀ q : Nat, q.Prime → q ∣ d → q = 2 ∨ q = 5

theorem onlyTwosAndFives_of_dvd {d twos fives : Nat} (h : d ∣ 2 ^ twos * 5 ^ fives) :
    OnlyTwosAndFives d := by
  intro q hq hdvd
  rcases hq.dvd_mul.mp (hdvd.trans h) with htwo | hfive
  · exact .inl ((Nat.prime_dvd_prime_iff_eq hq Nat.prime_two).mp (hq.dvd_of_dvd_pow htwo))
  · exact .inr ((Nat.prime_dvd_prime_iff_eq hq Nat.prime_five).mp (hq.dvd_of_dvd_pow hfive))

/-- A denominator as the factors that the two loops remove, and what they leave. -/
structure Factors (d twos odd fives rest : Nat) : Prop where
  removes_two : Removes 2 d odd twos
  removes_five : Removes 5 odd rest fives
  product : d = 2 ^ twos * 5 ^ fives * rest
  rest_eq_one : rest = 1 ↔ OnlyTwosAndFives d

/-- **What is left of a denominator** is one exactly if there are only twos and fives in it:
another prime factor of it would be a factor of what is left. -/
theorem exists_factors {d : Nat} (hd : 0 < d) :
    ∃ twos odd fives rest, removeFactor 2 d = (odd, twos) ∧
      removeFactor 5 odd = (rest, fives) ∧ Factors d twos odd fives rest := by
  generalize htwo : removeFactor 2 d = first
  obtain ⟨odd, twos⟩ := first
  generalize hfive : removeFactor 5 odd = second
  obtain ⟨rest, fives⟩ := second
  have hodd : odd * 2 ^ twos = d := by simpa [htwo] using removeFactor_mul_pow 2 d
  have hrest : rest * 5 ^ fives = odd := by simpa [hfive] using removeFactor_mul_pow 5 odd
  have hpos : 0 < odd := Nat.pos_of_mul_pos_right (hodd.symm ▸ hd)
  have hproduct : d = 2 ^ twos * 5 ^ fives * rest := by
    rw [← hodd, ← hrest]
    ring
  have htwos : ¬ 2 ∣ odd := by simpa [htwo] using not_dvd_removeFactor (p := 2) le_rfl hd
  have hfives : ¬ 5 ∣ rest := by
    simpa [hfive] using not_dvd_removeFactor (p := 5) (by decide) hpos
  refine ⟨twos, odd, fives, rest, rfl, hfive, ?_, ?_, hproduct, ?_, ?_⟩
  · simpa [htwo] using removes_removeFactor (p := 2) le_rfl hd
  · simpa [hfive] using removes_removeFactor (p := 5) (by decide) hpos
  · rintro rfl
    rw [mul_one] at hproduct
    exact onlyTwosAndFives_of_dvd (dvd_of_eq hproduct)
  · intro honly
    by_contra hne
    obtain ⟨q, hq, hdvd⟩ := Nat.exists_prime_and_dvd hne
    rcases honly q hq (hproduct ▸ Dvd.dvd.mul_left hdvd _) with rfl | rfl
    · exact htwos (hrest ▸ Dvd.dvd.mul_right hdvd _)
    · exact hfives hdvd

namespace Decimal

/-! ## Expansions that end -/

/-- Ten to the larger count is a multiple of the denominator. -/
theorem tenTo_max (twos fives : Nat) :
    tenTo (max twos fives) =
      2 ^ (max twos fives - twos) * 5 ^ (max twos fives - fives) * (2 ^ twos * 5 ^ fives) := by
  calc tenTo (max twos fives) = 2 ^ max twos fives * 5 ^ max twos fives := Nat.mul_pow 2 5 _
    _ = 2 ^ (max twos fives - twos + twos) * 5 ^ (max twos fives - fives + fives) := by
        rw [Nat.sub_add_cancel (le_max_left _ _), Nat.sub_add_cancel (le_max_right _ _)]
    _ = _ := by ring

/-- The coefficient of a fraction at the place where its expansion ends. -/
theorem expansion_coefficient (n : Int) (twos fives : Nat) :
    n * tenTo (max twos fives) / (2 ^ twos * 5 ^ fives : Nat) =
      n * (2 ^ (max twos fives - twos) * 5 ^ (max twos fives - fives) : Nat) := by
  have hne : ((2 ^ twos * 5 ^ fives : Nat) : Int) ≠ 0 := by positivity
  rw [tenTo_max, Nat.cast_mul, ← mul_assoc]
  exact Int.mul_ediv_cancel _ hne

/-- **The last place is needed.**  The factor that there are more of is none of the
numerator, so ten does not divide the coefficient. -/
theorem not_ten_dvd_expansion {n : Int} {twos fives : Nat}
    (hcoprime : n.natAbs.Coprime (2 ^ twos * 5 ^ fives)) (hplaces : 0 < max twos fives) :
    ¬ (10 : Int) ∣ n * (2 ^ (max twos fives - twos) * 5 ^ (max twos fives - fives) : Nat) := by
  intro hdvd
  -- a prime of ten that divides the coefficient is no factor of the numerator
  have hprime : ∀ q : Nat, q.Prime → q ∣ 10 → q ∣ 2 ^ twos * 5 ^ fives →
      q ∣ 2 ^ (max twos fives - twos) * 5 ^ (max twos fives - fives) := by
    intro q hq hten hdenominator
    have hproduct : q ∣ n.natAbs *
        (2 ^ (max twos fives - twos) * 5 ^ (max twos fives - fives)) := by
      have hcoefficient := Int.natAbs_dvd_natAbs.mpr hdvd
      rw [Int.natAbs_mul, Int.natAbs_natCast] at hcoefficient
      exact hten.trans hcoefficient
    rcases hq.dvd_mul.mp hproduct with hnumerator | hpowers
    · exact absurd (Nat.dvd_gcd hnumerator hdenominator) (hcoprime ▸ hq.not_dvd_one)
    · exact hpowers
  rcases le_total fives twos with hle | hle
  · rw [max_eq_left hle] at hplaces hprime
    have htwo := hprime 2 Nat.prime_two (by decide)
      (Dvd.dvd.mul_right (dvd_pow_self 2 hplaces.ne') _)
    rw [Nat.sub_self, pow_zero, one_mul] at htwo
    exact absurd (Nat.prime_two.dvd_of_dvd_pow htwo) (by decide)
  · rw [max_eq_right hle] at hplaces hprime
    have hfive := hprime 5 Nat.prime_five (by decide)
      (Dvd.dvd.mul_left (dvd_pow_self 5 hplaces.ne') _)
    rw [Nat.sub_self, pow_zero, mul_one] at hfive
    exact absurd (Nat.prime_five.dvd_of_dvd_pow hfive) (by decide)

/-- **An expansion that ends** is a normal form of exactly the fraction. -/
theorem isNormal_expansion {n : Int} {twos fives : Nat}
    (hcoprime : n.natAbs.Coprime (2 ^ twos * 5 ^ fives)) :
    let a := ofParts (n * tenTo (max twos fives) / (2 ^ twos * 5 ^ fives : Nat))
      (-(max twos fives : Nat))
    a.IsNormal ∧ a.toRat = n / (2 ^ twos * 5 ^ fives : Nat) := by
  have hcoefficient := expansion_coefficient n twos fives
  constructor
  · rw [hcoefficient]
    unfold ofParts
    split
    · exact isNormal_zero
    · refine ⟨by dsimp only; omega, ?_⟩
      rcases Nat.eq_zero_or_pos (max twos fives) with hzero | hpos
      · exact .inl (by rw [hzero]; rfl)
      · exact .inr (not_ten_dvd_expansion hcoprime hpos)
  · have hne : ((2 ^ twos * 5 ^ fives : Nat) : ℚ) ≠ 0 := by positivity
    have hten : (10 : ℚ) ^ max twos fives =
        (2 ^ (max twos fives - twos) * 5 ^ (max twos fives - fives) : Nat) *
          (2 ^ twos * 5 ^ fives : Nat) := by
      exact_mod_cast tenTo_max twos fives
    rw [toRat_ofParts, hcoefficient, zpow_neg, zpow_natCast, eq_div_iff hne, Int.cast_mul,
      Int.cast_natCast]
    calc (n : ℚ) * (2 ^ (max twos fives - twos) * 5 ^ (max twos fives - fives) : Nat) *
          (10 ^ max twos fives)⁻¹ * (2 ^ twos * 5 ^ fives : Nat)
        = n * 10 ^ max twos fives * (10 ^ max twos fives)⁻¹ := by
          rw [hten]
          ring
      _ = n := mul_inv_cancel_right₀ (by positivity) _

/-- The reduced fraction of a number: its value, with a positive denominator that has no common
factor with the numerator and divides a power of ten. -/
theorem ratio_spec (a : Decimal) :
    0 < a.ratio.2 ∧ a.ratio.1.natAbs.Coprime a.ratio.2 ∧ (∃ k, a.ratio.2 ∣ tenTo k) ∧
      (a.ratio.1 : ℚ) / a.ratio.2 = a.toRat := by
  unfold ratio
  split
  · next h =>
      refine ⟨Nat.one_pos, Nat.coprime_one_right _, ⟨0, one_dvd _⟩, ?_⟩
      rw [Nat.cast_one, div_one, ← toRat_scaledTo a h, zpow_zero, mul_one]
  · next h =>
      have hten : 0 < tenTo (-a.exponent).toNat := tenTo_pos _
      have hgcd : 0 < Nat.gcd a.coefficient.natAbs (tenTo (-a.exponent).toNat) :=
        Nat.gcd_pos_of_pos_right _ hten
      have hnum : ((Nat.gcd a.coefficient.natAbs (tenTo (-a.exponent).toNat) : Nat) : Int) ∣
          a.coefficient := Int.natCast_dvd.mpr (Nat.gcd_dvd_left _ _)
      have hden := Nat.gcd_dvd_right a.coefficient.natAbs (tenTo (-a.exponent).toNat)
      refine ⟨Nat.div_pos (Nat.le_of_dvd hten hden) hgcd, ?_, ?_, ?_⟩
      · dsimp only
        rw [Int.natAbs_ediv_of_dvd hnum, Int.natAbs_natCast]
        exact Nat.coprime_div_gcd_div_gcd hgcd
      · exact ⟨_, Nat.div_dvd_of_dvd hden⟩
      · dsimp only
        rw [toRat_of_neg_exponent (not_le.mp h), Int.cast_div hnum (by positivity),
          Nat.cast_div hden (by positivity), Int.cast_natCast, Int.cast_natCast]
        exact div_div_div_cancel_right₀ (by positivity) _ _

/-! ## The number of a fraction -/

section Fraction

variable {n : Int} {d : Nat} {v : Value}

/-- What a fraction is read as: the expansion where it ends, and a quotient elsewhere. -/
theorem ofFraction_eq (ctx : Context) (n : Int) (modifier : Value)
    {twos odd fives rest : Nat} (htwo : removeFactor 2 d = (odd, twos))
    (hfive : removeFactor 5 odd = (rest, fives)) :
    ofFraction ctx n d modifier =
      if rest = 1 then
        .ok (ofParts (n * tenTo (max twos fives) / d) (-(max twos fives : Nat)))
      else (ofInt n).divide ctx (ofInt d) modifier .none := by
  unfold ofFraction
  rw [htwo]
  dsimp only
  rw [hfive]

/-- A reduced fraction with only twos and fives in the denominator is read as the normal form
of its value. -/
theorem exists_ofFraction (ctx : Context) (hd : 0 < d) (hcoprime : n.natAbs.Coprime d)
    (honly : OnlyTwosAndFives d) (modifier : Value) :
    ∃ a, ofFraction ctx n d modifier = .ok a ∧ a.IsNormal ∧ a.toRat = n / d := by
  obtain ⟨twos, odd, fives, rest, htwo, hfive, hfactors⟩ := exists_factors hd
  obtain rfl : rest = 1 := hfactors.rest_eq_one.mpr honly
  have hproduct : d = 2 ^ twos * 5 ^ fives := by rw [hfactors.product, mul_one]
  rw [ofFraction_eq ctx n modifier htwo hfive, if_pos rfl]
  rw [hproduct] at hcoprime ⊢
  obtain ⟨hnormal, hvalue⟩ := isNormal_expansion hcoprime
  exact ⟨_, rfl, hnormal, hvalue⟩

/-- A fraction with another prime factor in the denominator is divided. -/
theorem ofFraction_eq_divide (ctx : Context) (n : Int) (hd : 0 < d) (hother : ¬ OnlyTwosAndFives d)
    (modifier : Value) :
    ofFraction ctx n d modifier = (ofInt n).divide ctx (ofInt d) modifier .none := by
  obtain ⟨twos, odd, fives, rest, htwo, hfive, hfactors⟩ := exists_factors hd
  rw [ofFraction_eq ctx n modifier htwo hfive, if_neg]
  exact fun hone => hother (hfactors.rest_eq_one.mp hone)

/-- A quotient of integers, rounded at a negative precision in the mode of the settings. -/
theorem divide_ofInt_rounds {ctx : Context} (n : Int) (hd : 0 < d) {modifier : Value} {p : Int}
    {mode : Rounding} (hp : p < 0) (hprecision : ctx.resolvePrecision modifier = .ok p)
    (hrounding : ctx.settings.rounding = mode.name) :
    ∃ a, (ofInt n).divide ctx (ofInt d) modifier .none = .ok a ∧ (a = zero ∨ a.exponent = p) ∧
      mode.Rounds p (n / d) a.toRat := by
  have hvalue : (ofInt d).toRat = d := toRat_ofInt d
  have hne : (ofInt d).toRat ≠ 0 := by
    rw [hvalue]
    positivity
  have hplace : (ofInt n).quotientPlace (ofInt d) p = p := by
    rw [quotientPlace, ofInt, ofInt, sub_self]
    exact min_eq_right hp.le
  refine ⟨(ofInt n).quotient (ofInt d) p mode, ?_, ?_, ?_⟩
  · exact divide_eq_quotient _ hne hprecision (Context.resolveRounding_default hrounding)
  · have hexponent := quotient_eq_zero_or_exponent (ofInt n) (ofInt d) p mode
    rwa [hplace] at hexponent
  · rw [toRat_quotient _ hne, hplace, toRat_ofInt, hvalue]
    exact mode.rounds_atPlace p _

end Fraction

/-- **Fractions are read exactly where they can be.**  The reduced fraction of a number is read
as the normal form of the number.  For every reduced fraction the loops that remove twos and
fives from the denominator end; if it has no other prime factor the result is a normal form of
exactly the fraction, whatever the precision, and else it is the quotient at the precision: the
fraction, rounded there in the mode of the settings (cut toward zero, where this is
`truncate`). -/
theorem ofValue_fraction (ctx : Context) :
    (∀ (a : Decimal) (modifier : Value),
      ofValue ctx (.symbolicRatio a.ratio.1 a.ratio.2) modifier = .ok a.normalize) ∧
    ∀ (n : Int) (d : Nat) (v : Value), 0 < d → n.natAbs.Coprime d →
      v = .fraction n d ∨ v = .symbolicRatio n d →
      (let twos := removeFactor 2 d
        let fives := removeFactor 5 twos.1
        Removes 2 d twos.1 twos.2 ∧ Removes 5 twos.1 fives.1 fives.2) ∧
      (OnlyTwosAndFives d → ∀ modifier,
        ∃ a, ofValue ctx v modifier = .ok a ∧ a.IsNormal ∧ a.toRat = n / d) ∧
      (¬ OnlyTwosAndFives d → ∀ modifier,
        ofValue ctx v modifier = (ofInt n).divide ctx (ofInt d) modifier .none ∧
        ∀ (p : Int) (mode : Rounding), p < 0 → ctx.resolvePrecision modifier = .ok p →
          ctx.settings.rounding = mode.name →
          ∃ a, ofValue ctx v modifier = .ok a ∧ (a = zero ∨ a.exponent = p) ∧
            mode.Rounds p (n / d) a.toRat) := by
  constructor
  · intro a modifier
    obtain ⟨hpos, hcoprime, ⟨k, hdvd⟩, hvalue⟩ := a.ratio_spec
    have honly : OnlyTwosAndFives a.ratio.2 := by
      have hten : tenTo k = 2 ^ k * 5 ^ k := Nat.mul_pow 2 5 k
      exact onlyTwosAndFives_of_dvd (hten ▸ hdvd)
    obtain ⟨b, hb, hnormal, hsame⟩ := exists_ofFraction ctx hpos hcoprime honly modifier
    have hform : b = a.normalize := by
      apply hnormal.eq_of_toRat_eq a.normalize_isNormal
      rw [hsame, hvalue, toRat_normalize]
    rw [← hform]
    exact hb
  · intro n d v hd hcoprime hv
    have hread : ∀ modifier, ofValue ctx v modifier = ofFraction ctx n d modifier := by
      intro modifier
      rcases hv with rfl | rfl <;> rfl
    refine ⟨?_, ?_, ?_⟩
    · obtain ⟨twos, odd, fives, rest, htwo, hfive, hfactors⟩ := exists_factors hd
      simp only [htwo, hfive]
      exact ⟨hfactors.removes_two, hfactors.removes_five⟩
    · intro honly modifier
      rw [hread]
      exact exists_ofFraction ctx hd hcoprime honly modifier
    · intro hother modifier
      have hdivide := ofFraction_eq_divide ctx n hd hother modifier
      rw [hread, hdivide]
      refine ⟨rfl, ?_⟩
      intro p mode hp hprecision hrounding
      exact divide_ofInt_rounds n hd hp hprecision hrounding

/-- Three fortieths end at the third place; seven twelfths do not, and are cut there. -/
theorem ofValue_fraction_twelfths :
    let ctx := Context.initial {}
    ofValue ctx (.fraction (-3) 40) .none = .ok ⟨-75, -3⟩ ∧
      (⟨-75, -3⟩ : Decimal).toRat = (-3 : Int) / (40 : Nat) ∧
      ofValue ctx (.fraction (-7) 12) (.int (-3)) = .ok ⟨-583, -3⟩ ∧
      IsCut (-3) ((-7 : Int) / (12 : Nat)) (⟨-583, -3⟩ : Decimal).toRat := by
  intro ctx
  have hexact : ofValue ctx (.fraction (-3) 40) .none = .ok ⟨-75, -3⟩ :=
    eq_ok_of_toOption (by decide +kernel)
  have hcut : ofValue ctx (.fraction (-7) 12) (.int (-3)) = .ok ⟨-583, -3⟩ :=
    eq_ok_of_toOption (by decide +kernel)
  have honly : OnlyTwosAndFives 40 :=
    onlyTwosAndFives_of_dvd (by decide : 40 ∣ 2 ^ 3 * 5 ^ 1)
  have hother : ¬ OnlyTwosAndFives 12 := by
    intro h
    exact absurd (h 3 Nat.prime_three (by decide)) (by decide)
  obtain ⟨-, hends, -⟩ :=
    (ofValue_fraction ctx).2 (-3) 40 _ (by decide) (by decide) (.inl rfl)
  obtain ⟨a, ha, -, hvalue⟩ := hends honly .none
  obtain rfl : (⟨-75, -3⟩ : Decimal) = a := Except.ok.inj (hexact.symm.trans ha)
  obtain ⟨-, -, hdivides⟩ :=
    (ofValue_fraction ctx).2 (-7) 12 _ (by decide) (by decide) (.inl rfl)
  obtain ⟨b, hb, -, hrounds⟩ :=
    (hdivides hother (.int (-3))).2 (-3) .truncate (by decide) rfl rfl
  obtain rfl : (⟨-583, -3⟩ : Decimal) = b := Except.ok.inj (hcut.symm.trans hb)
  exact ⟨hexact, hvalue, hcut, hrounds⟩

end Decimal

end DecimalCalc
