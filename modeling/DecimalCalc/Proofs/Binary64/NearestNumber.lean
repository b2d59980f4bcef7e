import DecimalCalc.Binary64.Basic
import Mathlib.Algebra.Order.Field.Power
import Mathlib.Algebra.Ring.Int.Parity
import Mathlib.Data.Rat.Cast.Order
import Mathlib.Tactic.Linarith
import Mathlib.Tactic.NormNum
import Mathlib.Tactic.Ring
import Mathlib.Tactic.WLOG
/-!
# The nearest binary number

A finite number of the format stands for the rational number `Binary64.toRat`.  What a
rational number is rounded to is said here without the way it is found: the nearest number
with a significand of 53 bits, and of two that are equally near the one with the even
significand (`IsNearest`).  If its exponent is too large for the format, an infinity takes its
place (`Rounds`).

There is only one such number: `Rounds.unique`.  Between two numbers with even significands
there is always another one, which is nearer to their middle.
-/

namespace DecimalCalc.Binary64

open Numeral

/-- A significand with the sign of its number. -/
def signedInt (negative : Bool) (m : Nat) : Int := if negative then -m else m

/-- The rational number that a finite number stands for. -/
def toRat : Binary64 → ℚ
  | finite negative m q => signedInt negative m * 2 ^ q
  | _ => 0

/-- The numbers with significands of 53 bits: those of the format, and the larger ones that it
would have without a greatest exponent. -/
def OnGrid (v : ℚ) : Prop := ∃ n q : Int, |n| < 2 ^ 53 ∧ leastExponent ≤ q ∧ v = n * 2 ^ q

/-- A number in its canonical form is the nearest one to a rational number, and has an even
significand if another one is equally near. -/
structure IsNearest (x : ℚ) (negative : Bool) (m : Nat) (q : Int) : Prop where
  sign : negative = true ↔ x < 0
  lt : m < 2 ^ 53
  least_le : leastExponent ≤ q
  leading : 2 ^ 52 ≤ m ∨ q = leastExponent
  nearest : ∀ v, OnGrid v → |x - (finite negative m q).toRat| ≤ |x - v|
  tie : ∀ v, OnGrid v → v ≠ (finite negative m q).toRat →
    |x - v| = |x - (finite negative m q).toRat| → Even m

/-- A binary number is what a rational number is rounded to: the nearest one, or an infinity
if that is beyond the format. -/
def Rounds (x : ℚ) : Binary64 → Prop
  | finite negative m q => IsNearest x negative m q ∧ q ≤ greatestExponent
  | infinite negative => ∃ m q, IsNearest x negative m q ∧ greatestExponent < q
  | nan => False

variable {x : ℚ} {negative negative' : Bool} {m m' : Nat} {q q' : Int}

/-! ## Powers of two -/

theorem twoTo_cast (n : Nat) : ((twoTo n : Nat) : ℚ) = 2 ^ n := by simp [twoTo]

theorem two_zpow_pos (q : Int) : (0 : ℚ) < 2 ^ q := zpow_pos (by norm_num) q

/-- A natural power moves an integral one up. -/
theorem pow_mul_zpow {b : ℚ} (hb : b ≠ 0) {n : Nat} {r s : Int} (h : n + r = s) :
    b ^ n * b ^ r = b ^ s := by
  rw [← zpow_natCast, ← zpow_add₀ hb, h]

/-- A multiple of a power of two is one of every smaller power. -/
theorem rescale (n : Int) {r : Int} (h : q ≤ r) :
    (n : ℚ) * 2 ^ r = (n * 2 ^ (r - q).toNat : Int) * 2 ^ q := by
  have hsplit : (2 : ℚ) ^ (r - q).toNat * 2 ^ q = 2 ^ r := pow_mul_zpow two_ne_zero (by omega)
  rw [← hsplit, Int.cast_mul, Int.cast_pow, Int.cast_ofNat, mul_assoc]

theorem mul_two_zpow_injective {n n' : Int} (h : (n : ℚ) * 2 ^ q = n' * 2 ^ q) : n = n' := by
  exact_mod_cast mul_right_cancel₀ (two_zpow_pos q).ne' h

/-! ## Signs -/

theorem abs_signedInt (negative : Bool) (m : Nat) : |signedInt negative m| = m := by
  cases negative with
  | false => exact abs_of_nonneg (Int.natCast_nonneg m)
  | true => rw [signedInt, if_pos rfl, abs_neg, abs_of_nonneg (Int.natCast_nonneg m)]

theorem even_signedInt_iff (negative : Bool) (m : Nat) : Even (signedInt negative m) ↔ Even m := by
  cases negative with
  | false => exact Int.even_coe_nat m
  | true => rw [signedInt, if_pos rfl, even_neg, Int.even_coe_nat]

theorem signedInt_injective (h : signedInt negative m = signedInt negative m') : m = m' := by
  have habs := congrArg abs h
  rw [abs_signedInt, abs_signedInt] at habs
  exact_mod_cast habs

theorem significand_ne_zero (h : (finite negative m q).toRat ≠ 0) : m ≠ 0 := by
  intro hzero
  exact h (by simp [toRat, signedInt, hzero])

theorem toRat_positive (m : Nat) (q : Int) : (finite false m q).toRat = m * 2 ^ q := by
  rw [toRat, signedInt, if_neg Bool.false_ne_true, Int.cast_natCast]

theorem toRat_not (negative : Bool) (m : Nat) (q : Int) :
    (finite (!negative) m q).toRat = -(finite negative m q).toRat := by
  cases negative with
  | false => simp [toRat, signedInt]
  | true => simp [toRat, signedInt]

theorem OnGrid.neg {v : ℚ} (h : OnGrid v) : OnGrid (-v) := by
  obtain ⟨n, q, hn, hq, hv⟩ := h
  exact ⟨-n, q, by rwa [abs_neg], hq, by rw [hv, Int.cast_neg, neg_mul]⟩

/-- The nearest number to the negative of a number has the other sign. -/
theorem IsNearest.neg (h : IsNearest x negative m q) (hx : x ≠ 0) :
    IsNearest (-x) (!negative) m q := by
  have hdistance : ∀ v, |-x - v| = |x - -v| := by
    intro v
    rw [← abs_neg, neg_sub', neg_neg]
  have hsign : (!negative) = true ↔ -x < 0 := by
    rw [Bool.not_eq_true', ← Bool.not_eq_true, h.sign, not_lt, neg_neg_iff_pos]
    exact ⟨fun hle => lt_of_le_of_ne hle hx.symm, le_of_lt⟩
  refine ⟨hsign, h.lt, h.least_le, h.leading, ?_, ?_⟩
  · intro v hv
    rw [hdistance, hdistance, toRat_not, neg_neg]
    exact h.nearest (-v) hv.neg
  · intro v hv hne htie
    rw [hdistance, hdistance, toRat_not, neg_neg] at htie
    refine h.tie (-v) hv.neg ?_ htie
    intro heq
    exact hne (by rw [toRat_not, ← heq, neg_neg])

theorem IsNearest.withSign (h : IsNearest x false m q) (hx : x ≠ 0) (negative : Bool) :
    IsNearest (if negative then -x else x) negative m q := by
  cases negative with
  | false => exact h
  | true => exact h.neg hx

/-- The nearest number to an absolute value. -/
theorem IsNearest.abs (h : IsNearest x negative m q) : IsNearest |x| false m q := by
  cases negative with
  | false =>
      have hx : 0 ≤ x := not_lt.mp fun hlt => Bool.false_ne_true (h.sign.mpr hlt)
      rwa [abs_of_nonneg hx]
  | true =>
      have hx : x < 0 := h.sign.mp rfl
      rw [abs_of_neg hx]
      exact h.neg hx.ne

/-! ## Canonical forms -/

theorem onGrid_finite (negative : Bool) (hm : m < 2 ^ 53) (hq : leastExponent ≤ q) :
    OnGrid (finite negative m q).toRat := by
  refine ⟨signedInt negative m, q, ?_, hq, rfl⟩
  rw [abs_signedInt]
  exact_mod_cast hm

/-- Of two canonical forms of one number the first cannot have the smaller exponent: its
significand would be too large. -/
theorem exponent_le_of_toRat_eq (hm : m < 2 ^ 53) (hq : leastExponent ≤ q)
    (hleading : 2 ^ 52 ≤ m' ∨ q' = leastExponent)
    (h : (finite negative m q).toRat = (finite negative m' q').toRat) : q' ≤ q := by
  by_contra hlt
  have hleast : 2 ^ 52 ≤ m' := by omega
  have hscaled : signedInt negative m = signedInt negative m' * 2 ^ (q' - q).toNat :=
    mul_two_zpow_injective (h.trans (rescale _ (by omega)))
  have habs := congrArg abs hscaled
  rw [abs_mul, abs_signedInt, abs_signedInt, abs_of_pos (by positivity)] at habs
  have hdouble : (2 : Int) ^ 1 ≤ 2 ^ (q' - q).toNat :=
    pow_le_pow_right₀ (by norm_num) (by omega)
  have hlarge : (2 : Int) ^ 52 * 2 ^ 1 ≤ m' * 2 ^ (q' - q).toNat :=
    mul_le_mul (by exact_mod_cast hleast) hdouble (by norm_num) (by positivity)
  omega

/-! ## Uniqueness -/

/-- Between two numbers with even significands there is another one: with the smaller of the
exponents both significands are even, so one of the next two is between them. -/
theorem exists_between {n n' : Int} (hn : Even n) (hn' : Even n') (hlt : |n| < 2 ^ 53)
    (hlt' : |n'| < 2 ^ 53) (hq : leastExponent ≤ q) (hq' : leastExponent ≤ q')
    (hne : (n : ℚ) * 2 ^ q ≠ n' * 2 ^ q') :
    ∃ v, OnGrid v ∧ ((n : ℚ) * 2 ^ q < v ∧ v < n' * 2 ^ q' ∨
      (n' : ℚ) * 2 ^ q' < v ∧ v < n * 2 ^ q) := by
  wlog hle : q ≤ q' generalizing n n' q q'
  · obtain ⟨v, hv, hbetween⟩ := this hn' hn hlt' hlt hq' hq hne.symm (by omega)
    exact ⟨v, hv, hbetween.symm⟩
  obtain ⟨i, rfl⟩ := hn.two_dvd
  have hk : Even (n' * 2 ^ (q' - q).toNat) := hn'.mul_right _
  rw [rescale n' hle] at hne ⊢
  obtain ⟨k, hk⟩ := hk.two_dvd
  rw [hk] at hne ⊢
  have hpos := two_zpow_pos q
  have hik : i ≠ k := by
    rintro rfl
    exact hne rfl
  rw [abs_lt] at hlt
  rcases lt_or_gt_of_ne hik with hless | hgreater
  · refine ⟨((2 * i + 1 : Int) : ℚ) * 2 ^ q, ⟨_, q, by rw [abs_lt]; omega, hq, rfl⟩, .inl ⟨?_, ?_⟩⟩
    · exact mul_lt_mul_of_pos_right (by exact_mod_cast Int.lt_succ _) hpos
    · exact mul_lt_mul_of_pos_right (by exact_mod_cast (by omega : 2 * i + 1 < 2 * k)) hpos
  · refine ⟨((2 * i - 1 : Int) : ℚ) * 2 ^ q, ⟨_, q, by rw [abs_lt]; omega, hq, rfl⟩, .inr ⟨?_, ?_⟩⟩
    · exact mul_lt_mul_of_pos_right (by exact_mod_cast (by omega : 2 * k < 2 * i - 1)) hpos
    · exact mul_lt_mul_of_pos_right (by exact_mod_cast Int.pred_self_lt _) hpos

/-- What is between two equally distant numbers is nearer. -/
theorem abs_sub_lt_of_between {u v w : ℚ} (h : |x - u| = |x - w|)
    (hv : u < v ∧ v < w ∨ w < v ∧ v < u) : |x - v| < |x - u| := by
  have hmiddle : 2 * x = u + w := by
    rcases abs_eq_abs.mp h with hsame | hopposite
    · rcases hv with ⟨hlow, hhigh⟩ | ⟨hlow, hhigh⟩
      · linarith
      · linarith
    · linarith
  rcases hv with ⟨hlow, hhigh⟩ | ⟨hlow, hhigh⟩
  · rw [abs_of_pos (by linarith : 0 < x - u), abs_lt]
    constructor <;> linarith
  · rw [abs_of_neg (by linarith : x - u < 0), abs_lt]
    constructor <;> linarith

/-- The nearest numbers are the same: else both would have even significands, and a number
between them would be nearer. -/
theorem IsNearest.toRat_eq (h : IsNearest x negative m q) (h' : IsNearest x negative' m' q') :
    (finite negative m q).toRat = (finite negative' m' q').toRat := by
  by_contra hne
  have hgrid := onGrid_finite negative h.lt h.least_le
  have hgrid' := onGrid_finite negative' h'.lt h'.least_le
  have hdistance := le_antisymm (h.nearest _ hgrid') (h'.nearest _ hgrid)
  have heven := (even_signedInt_iff negative m).mpr (h.tie _ hgrid' (Ne.symm hne) hdistance.symm)
  have heven' := (even_signedInt_iff negative' m').mpr (h'.tie _ hgrid hne hdistance)
  have hlt : |signedInt negative m| < 2 ^ 53 := by
    rw [abs_signedInt]
    exact_mod_cast h.lt
  have hlt' : |signedInt negative' m'| < 2 ^ 53 := by
    rw [abs_signedInt]
    exact_mod_cast h'.lt
  obtain ⟨v, hv, hbetween⟩ := exists_between heven heven' hlt hlt' h.least_le h'.least_le hne
  exact (h.nearest v hv).not_gt (abs_sub_lt_of_between hdistance hbetween)

theorem IsNearest.unique (h : IsNearest x negative m q) (h' : IsNearest x negative' m' q') :
    negative = negative' ∧ m = m' ∧ q = q' := by
  obtain rfl : negative = negative' := by rw [Bool.eq_iff_iff, h.sign, h'.sign]
  have hvalue := h.toRat_eq h'
  obtain rfl : q = q' := le_antisymm
    (exponent_le_of_toRat_eq h'.lt h'.least_le h.leading hvalue.symm)
    (exponent_le_of_toRat_eq h.lt h.least_le h'.leading hvalue)
  exact ⟨rfl, signedInt_injective (mul_two_zpow_injective hvalue), rfl⟩

/-- The nearest number, or an infinity in its place, is what is rounded to. -/
theorem IsNearest.rounds (h : IsNearest x negative m q) :
    Rounds x (if greatestExponent < q then infinite negative else finite negative m q) := by
  by_cases hlt : greatestExponent < q
  · rw [if_pos hlt]
    exact ⟨m, q, h, hlt⟩
  · rw [if_neg hlt]
    exact ⟨h, not_lt.mp hlt⟩

/-- **A rational number is rounded to one binary number only.** -/
theorem Rounds.unique {y z : Binary64} (hy : Rounds x y) (hz : Rounds x z) : y = z := by
  cases y with
  | finite negative m q =>
      obtain ⟨hnearest, hle⟩ := hy
      cases z with
      | finite negative' m' q' =>
          obtain ⟨rfl, rfl, rfl⟩ := hnearest.unique hz.1
          rfl
      | infinite negative' =>
          obtain ⟨m', q', hnearest', hlt⟩ := hz
          obtain ⟨-, -, rfl⟩ := hnearest.unique hnearest'
          omega
      | nan => exact hz.elim
  | infinite negative =>
      obtain ⟨m, q, hnearest, hlt⟩ := hy
      cases z with
      | finite negative' m' q' =>
          obtain ⟨-, -, rfl⟩ := hnearest.unique hz.1
          exact absurd hz.2 (by omega)
      | infinite negative' =>
          obtain ⟨m', q', hnearest', -⟩ := hz
          rw [(hnearest.unique hnearest').1]
      | nan => exact hz.elim
  | nan => exact hy.elim

/-- A canonical number is what its own value is rounded to. -/
theorem rounds_toRat {x : Binary64} (hx : x.IsCanonical) (hne : x.toRat ≠ 0) :
    Rounds x.toRat x := by
  cases x with
  | finite negative m q =>
      obtain ⟨hlt, hleast, hgreatest, hleading⟩ := hx
      have hcast : (0 : ℚ) < m := by
        exact_mod_cast Nat.pos_of_ne_zero (significand_ne_zero hne)
      have hm : (0 : ℚ) < m * 2 ^ q := mul_pos hcast (two_zpow_pos q)
      refine ⟨⟨?_, hlt, hleast, hleading, ?_, ?_⟩, hgreatest⟩
      · cases negative with
        | false => simp [toRat_positive, hm.le]
        | true =>
            have hvalue : (finite true m q).toRat = -(m * 2 ^ q) := by
              rw [← toRat_positive]
              exact toRat_not false m q
            rw [hvalue]
            exact iff_of_true rfl (neg_lt_zero.mpr hm)
      · intro v _
        rw [sub_self, abs_zero]
        exact abs_nonneg _
      · intro v _ hv htie
        rw [sub_self, abs_zero, abs_eq_zero, sub_eq_zero] at htie
        exact absurd htie.symm hv
  | infinite negative => exact absurd rfl hne
  | nan => exact absurd rfl hne

/-! ## The range -/

/-- The middle between the greatest finite number and the number that would follow it. -/
def overflow : ℚ := (2 ^ 53 - 1 / 2) * 2 ^ greatestExponent

/-- From the middle on no finite number is nearest: the one beyond the format is nearer, or
as near as the greatest finite number, whose significand is odd. -/
theorem IsNearest.lt_overflow (h : IsNearest x false m q) (hq : q ≤ greatestExponent) :
    x < overflow := by
  by_contra hge
  rw [overflow, not_lt] at hge
  obtain ⟨u, hu⟩ : ∃ u : ℚ, u = 2 ^ greatestExponent := ⟨_, rfl⟩
  have hpos : 0 < u := hu ▸ two_zpow_pos _
  rw [← hu] at hge
  have hbound : ∀ k : Nat, m ≤ k → (finite false m q).toRat ≤ k * u := by
    intro k hk
    have hcast : (m : ℚ) ≤ k := by exact_mod_cast hk
    rw [toRat_positive, hu]
    exact mul_le_mul hcast (zpow_le_zpow_right₀ (by norm_num) hq) (two_zpow_pos q).le
      (Nat.cast_nonneg k)
  have hgrid : OnGrid (2 ^ 53 * u) := by
    refine ⟨2 ^ 52, greatestExponent + 1, by norm_num, by decide, ?_⟩
    rw [zpow_add₀ (by norm_num), ← hu]
    push_cast
    ring
  have hlt := h.lt
  have hgreatest := hbound (2 ^ 53 - 1) (by omega)
  push_cast at hgreatest
  have hdistance : |x - (finite false m q).toRat| = x - (finite false m q).toRat :=
    abs_of_nonneg (by linarith)
  have hbeyond : |x - 2 ^ 53 * u| ≤ x - (finite false m q).toRat := by
    rw [abs_le]
    constructor <;> linarith
  have htie : |x - 2 ^ 53 * u| = |x - (finite false m q).toRat| :=
    le_antisymm (hbeyond.trans hdistance.ge) (h.nearest _ hgrid)
  have heven := h.tie _ hgrid (by linarith : (finite false m q).toRat < 2 ^ 53 * u).ne' htie
  have hsecond := hbound (2 ^ 53 - 2) (by obtain ⟨k, hk⟩ := heven; omega)
  push_cast at hsecond
  have hnearer : |x - 2 ^ 53 * u| < x - (finite false m q).toRat := by
    rw [abs_lt]
    constructor <;> linarith
  exact (hnearer.trans_eq hdistance.symm).ne htie

/-- Below the middle no number beyond the format is nearest: the greatest finite one is
nearer. -/
theorem IsNearest.overflow_le (h : IsNearest x false m q) (hq : greatestExponent < q) :
    overflow ≤ x := by
  by_contra hlt
  rw [overflow, not_le] at hlt
  obtain ⟨u, hu⟩ : ∃ u : ℚ, u = 2 ^ greatestExponent := ⟨_, rfl⟩
  have hpos : 0 < u := hu ▸ two_zpow_pos _
  rw [← hu] at hlt
  have hvalue : 2 ^ 53 * u ≤ (finite false m q).toRat := by
    have hleast : leastExponent < q := lt_trans (by decide) hq
    have hcast : (2 : ℚ) ^ 52 ≤ m := by exact_mod_cast h.leading.resolve_right hleast.ne'
    have hunit : 2 * u = 2 ^ (greatestExponent + 1) := by
      rw [zpow_add₀ (by norm_num), ← hu]
      ring
    calc 2 ^ 53 * u = 2 ^ 52 * (2 * u) := by ring
      _ ≤ (m : ℚ) * 2 ^ q := by
          rw [hunit]
          exact mul_le_mul hcast (zpow_le_zpow_right₀ (by norm_num) hq)
            (two_zpow_pos _).le (Nat.cast_nonneg m)
      _ = (finite false m q).toRat := (toRat_positive m q).symm
  have hgrid : OnGrid ((2 ^ 53 - 1) * u) := by
    refine ⟨2 ^ 53 - 1, greatestExponent, by norm_num, by decide, ?_⟩
    rw [← hu]
    norm_num
  have hnearer : |x - (2 ^ 53 - 1) * u| < (finite false m q).toRat - x := by
    rw [abs_lt]
    constructor <;> linarith
  have hdistance : |x - (finite false m q).toRat| = (finite false m q).toRat - x := by
    rw [abs_sub_comm, abs_of_nonneg (by linarith)]
  exact (h.nearest _ hgrid).not_gt (hnearer.trans_eq hdistance.symm)

/-- **The result is finite exactly below the middle.** -/
theorem Rounds.isFinite_iff {y : Binary64} (h : Rounds x y) :
    y.isFinite = true ↔ |x| < overflow := by
  cases y with
  | finite negative m q => exact iff_of_true rfl (h.1.abs.lt_overflow h.2)
  | infinite negative =>
      obtain ⟨m, q, hnearest, hq⟩ := h
      exact iff_of_false Bool.false_ne_true (hnearest.abs.overflow_le hq).not_gt
  | nan => exact h.elim

/-- A result that is not finite is the infinity of the sign. -/
theorem Rounds.eq_infinite {y : Binary64} (h : Rounds x y) (hy : y.isFinite = false) :
    y = infinite (decide (x < 0)) := by
  cases y with
  | finite negative m q => cases hy
  | infinite negative =>
      obtain ⟨m, q, hnearest, -⟩ := h
      have hsign : negative = decide (x < 0) := by
        rw [Bool.eq_iff_iff, hnearest.sign, decide_eq_true_iff]
      rw [hsign]
  | nan => exact h.elim

end DecimalCalc.Binary64
