import DecimalCalc.Proofs.Decimal.ExponentForms
import DecimalCalc.Proofs.Decimal.PowerRoots
import Mathlib.Algebra.Order.Archimedean.Basic
/-!
# The steps of a fractional power

A power halves an exponent that is no integer until it is below one, and then searches for it.
Both come to an end of themselves, whatever limits the computation counts on: a halving is
exact, so the `n`-th one leaves the `2 ^ n`-th part of the exponent, and a step of the search
halves the interval exactly, so the middle comes within epsilon of the exponent.

* `HalvedTo` are the exponents that the halvings come to, `HalvedTo.toRat_eq`.  The power is the
  one below one, squared as often as the exponent was halved: `HalvedTo.power_eq`.
* `Bisection.Reaches` are the states of the search, which goes on for as long as the middle is
  far from the exponent and knows of no limit.  `Reaches.halves` is the invariant, and
  `Reaches.exists_odd` and `Reaches.epsilon_lt` follow from it: where the middles are, and how
  long the interval can have been halved.
* `Reaches.exists_end`: the search ends in such a state.
* `power_search_ends`: all of it for a power, if only the roots that it takes (`TakesRoot`) are
  found.
-/

namespace DecimalCalc.Decimal

variable {ctx : Context} {mode : Rounding} {base e half below exponent r : Decimal}
  {p working : Int} {n k : Nat}

/-! ## Halving the exponent -/

/-- The exponents that a power comes to from an exponent, with the number of halvings: one that
is not below one is halved, one digit below its form. -/
inductive HalvedTo (ctx : Context) : Nat → Decimal → Decimal → Prop where
  | here (e : Decimal) : HalvedTo ctx 0 e e
  | half {n : Nat} {e half below : Decimal} (hone : ¬ e.less one = true)
      (hdivide : e.divide ctx two (.int (e.exponent - 1)) .none = .ok half)
      (hrest : HalvedTo ctx n half below) : HalvedTo ctx (n + 1) e below

/-- The half of an exponent is exact. -/
theorem toRat_of_halve (h : e.divide ctx two (.int (e.exponent - 1)) .none = .ok half) :
    half.toRat = e.toRat / 2 := by
  obtain ⟨-, mode, -, rfl⟩ := eq_quotient_of_divide h
  exact toRat_quotient_two e le_rfl mode

/-- **Halvings are exact**, by induction on them. -/
theorem HalvedTo.toRat_eq (h : HalvedTo ctx n e below) : below.toRat = e.toRat / 2 ^ n := by
  induction h with
  | here e => rw [pow_zero, div_one]
  | half _ hdivide _ ih => rw [ih, toRat_of_halve hdivide, div_div, ← pow_succ']

theorem HalvedTo.not_isInteger (h : HalvedTo ctx n e below) (hint : ¬ e.isInteger = true) :
    ¬ below.isInteger = true := by
  induction h with
  | here e => exact hint
  | half _ hdivide _ ih => exact ih (not_isInteger_half (toRat_of_halve hdivide) hint)

/-- **Halving ends below one**, after `n` halvings at most if the exponent is below `2 ^ n`. -/
theorem exists_halvedTo (hmode : ctx.resolveRounding .none = .ok mode)
    (hint : ¬ e.isInteger = true) (hlt : e.toRat < 2 ^ n) :
    ∃ m below, HalvedTo ctx m e below ∧ below.less one = true := by
  induction n generalizing e with
  | zero =>
      refine ⟨0, e, .here e, ?_⟩
      rw [less_iff, toRat_one]
      rwa [pow_zero] at hlt
  | succ n ih =>
      by_cases hone : e.less one = true
      · exact ⟨0, e, .here e, hone⟩
      · obtain ⟨half, hdivide⟩ :
            ∃ half, e.divide ctx two (.int (e.exponent - 1)) .none = .ok half := by
          rw [halve_eq (exponent_le_of_not_isInteger hint), hmode]
          exact ⟨_, rfl⟩
        have hexact := toRat_of_halve hdivide
        have hhalf : half.toRat < 2 ^ n := by
          rw [pow_succ] at hlt
          linarith
        obtain ⟨m, below, hrest, hbelow⟩ := ih (not_isInteger_half hexact hint) hhalf
        exact ⟨m + 1, below, .half hone hdivide hrest, hbelow⟩

/-- What undoes a halving: the square, cut at the working precision. -/
def squared (working : Int) (r : Decimal) : Decimal := (r.mul r).truncate working

/-- One halving: the power is the square of the one with the half, and reports what that
reports. -/
theorem power_of_halve (hone : ¬ e.less one = true) (hint : ¬ e.isInteger = true)
    (hdivide : e.divide ctx two (.int (e.exponent - 1)) .none = .ok half)
    (hworking : ctx.workingPrecision (.int p) = .ok working) (base : Decimal) :
    base.power ctx e (.int p) =
      base.power ctx half (.int p) >>= fun root => pure (squared working root) := by
  have hle : 1 ≤ e.toRat := by
    rw [less_iff, toRat_one] at hone
    exact not_lt.mp hone
  rw [power_of_one_le hle hint, hworking, Traced.liftM_ok_bind, hdivide, Traced.liftM_ok_bind]
  rfl

/-- **The power of a halved exponent** is squared as often as the exponent was halved, and
nothing else is reported. -/
theorem HalvedTo.power_eq (h : HalvedTo ctx n e below) (hint : ¬ e.isInteger = true)
    (hworking : ctx.workingPrecision (.int p) = .ok working)
    (hr : (base.power ctx below (.int p)).outcome = .ok r) :
    (base.power ctx e (.int p)).outcome = .ok ((squared working)^[n] r) ∧
      (base.power ctx e (.int p)).events = (base.power ctx below (.int p)).events := by
  induction h with
  | here e => exact ⟨hr, rfl⟩
  | @half n e half below hone hdivide hrest ih =>
      obtain ⟨houtcome, hevents⟩ :=
        ih (not_isInteger_half (toRat_of_halve hdivide) hint) hr
      rw [power_of_halve hone hint hdivide hworking, Traced.events_bind_of_ok houtcome, hevents,
        Traced.outcome_bind, houtcome, Function.iterate_succ_apply']
      exact ⟨rfl, List.append_nil _⟩

/-- A power that is found is found for every exponent that the halvings come to. -/
theorem HalvedTo.exists_power (h : HalvedTo ctx n e below) (hint : ¬ e.isInteger = true)
    (hworking : ctx.workingPrecision (.int p) = .ok working)
    (hr : (base.power ctx e (.int p)).outcome = .ok r) :
    ∃ r', (base.power ctx below (.int p)).outcome = .ok r' := by
  induction h generalizing r with
  | here e => exact ⟨r, hr⟩
  | half hone hdivide _ ih =>
      rw [power_of_halve hone hint hdivide hworking, Traced.outcome_bind] at hr
      obtain ⟨root, hroot, -⟩ := bind_eq_ok_iff.mp hr
      exact ih (not_isInteger_half (toRat_of_halve hdivide) hint) hroot

/-! ## The search -/

namespace Bisection

variable {b : Bisection}

/-- The states of the search for an exponent, with the number of steps done: it starts with the
root of the base, and goes on where the middle is far from the exponent. -/
inductive Reaches (ctx : Context) (base exponent : Decimal) (working : Int) :
    Nat → Bisection → Prop where
  | start {root : Decimal} (hroot : (base.sqrt ctx (.int working)).outcome = .ok root) :
      Reaches ctx base exponent working 0 (start root)
  | step {k : Nat} {b b' : Bisection} (hb : Reaches ctx base exponent working k b)
      (hfar : b.middle.farApart ctx.settings exponent = true)
      (hstep : (b.step ctx exponent working).outcome = .ok b') :
      Reaches ctx base exponent working (k + 1) b'

/-- Roots of a positive base stay positive. -/
theorem Reaches.root_pos (h : Reaches ctx base exponent working k b)
    (hmode : ctx.resolveRounding .none = .ok mode) (hbase : 0 < base.toRat) :
    0 < b.root.toRat := by
  induction h with
  | start hroot => exact sqrt_pos hmode hbase hroot
  | step _ _ hstep ih =>
      obtain ⟨_, hroot, -⟩ := step_eq_ok hstep
      exact sqrt_pos hmode ih hroot

/-! ## The interval of a state -/

/-- The middle of an interval that starts at a multiple of its width is an odd multiple of half
of the width. -/
theorem Halves.middle_eq_odd (hb : Halves exponent k b) {m : Int}
    (hm : b.low.toRat = m / 2 ^ k) : b.middle.toRat = (2 * m + 1) / 2 ^ (k + 1) := by
  have hwidth := hb.width
  have hhigh : b.high.toRat = m / 2 ^ k + 1 / 2 ^ k := by linarith
  rw [hb.middle, hm, hhigh, pow_succ]
  ring

section Interval

variable (h : Reaches ctx base exponent working k b) (hworking : working < 0)
  (hpos : 0 < exponent.toRat) (hone : exponent.toRat < 1)

include h hworking hpos hone

/-- **The invariant of the search.** -/
theorem Reaches.halves : Halves exponent k b := by
  induction h with
  | start _ => exact halves_start _ hpos.le hone.le
  | step _ _ hstep ih => exact ih.step hworking hstep

/-- The lower end is a multiple of the width: it stays, or moves to the middle. -/
theorem Reaches.exists_multiple : ∃ m : Int, b.low.toRat = m / 2 ^ k := by
  induction h with
  | start _ =>
      refine ⟨0, ?_⟩
      rw [Int.cast_zero, zero_div]
      exact toRat_zero
  | @step k b b' hb _ hstep ih =>
      obtain ⟨m, hm⟩ := ih
      have hmiddle := (hb.halves hworking hpos hone).middle_eq_odd hm
      obtain ⟨low, high, middle, root, power⟩ := b'
      obtain ⟨_, -, hchosen, -⟩ := step_eq_ok hstep
      cases hchosen with
      | lower _ _ =>
          refine ⟨2 * m, ?_⟩
          rw [hm, Int.cast_mul, Int.cast_ofNat, pow_succ, mul_comm (2 : ℚ),
            mul_div_mul_right _ _ two_ne_zero]
      | upper _ =>
          refine ⟨2 * m + 1, ?_⟩
          push_cast
          exact hmiddle

/-- **The middle** is an odd multiple of half of the width. -/
theorem Reaches.exists_odd : ∃ m : Int, b.middle.toRat = (2 * m + 1) / 2 ^ (k + 1) := by
  obtain ⟨m, hm⟩ := h.exists_multiple hworking hpos hone
  exact ⟨m, (h.halves hworking hpos hone).middle_eq_odd hm⟩

/-- A search has gone on only while the interval was wider than epsilon. -/
theorem Reaches.epsilon_lt (hk : k ≠ 0) :
    (10 : ℚ) ^ ctx.settings.epsilonExponent < 1 / 2 ^ k := by
  cases h with
  | start _ => exact absurd rfl hk
  | step hb hfar _ =>
      rw [farApart_iff] at hfar
      exact hfar.trans_le (hb.halves hworking hpos hone).abs_middle_sub_le

/-- Under the epsilon by default a search has at most 162 steps. -/
theorem Reaches.le_of_default (hepsilon : ctx.settings.epsilonExponent = -49) : k ≤ 162 := by
  by_contra hlong
  have hlt := h.epsilon_lt hworking hpos hone (by omega)
  have hle : (1 : ℚ) / 2 ^ k ≤ 1 / 2 ^ 163 :=
    one_div_le_one_div_of_le (by positivity) (pow_le_pow_right₀ (by norm_num) (by omega))
  rw [hepsilon] at hlt
  norm_num at hlt hle
  linarith

end Interval

/-- After as many steps as are counted for a search the middle is not far any more. -/
theorem Halves.not_farApart (hb : Halves exponent k b) (hk : stepLimit ctx.settings ≤ k) :
    ¬ b.middle.farApart ctx.settings exponent = true := by
  rw [farApart_iff, not_lt]
  refine hb.abs_middle_sub_le.trans ?_
  have hwidth : (1 : ℚ) / 2 ^ (k + 1) ≤ 1 / 16 ^ (-ctx.settings.epsilonExponent).toNat := by
    refine one_div_le_one_div_of_le (by positivity) ?_
    have hpow : (16 : ℚ) = 2 ^ 4 := by norm_num
    rw [hpow, ← pow_mul]
    unfold stepLimit at hk
    exact pow_le_pow_right₀ (by norm_num) (by omega)
  calc (1 : ℚ) / 2 ^ (k + 1) ≤ 1 / 16 ^ (-ctx.settings.epsilonExponent).toNat := hwidth
    _ ≤ 1 / 10 ^ (-ctx.settings.epsilonExponent).toNat :=
        one_div_le_one_div_of_le (by positivity)
          (pow_le_pow_left₀ (by norm_num) (by norm_num) _)
    _ = 10 ^ (-((-ctx.settings.epsilonExponent).toNat : Int)) := by
        rw [zpow_neg, zpow_natCast, one_div]
    _ ≤ 10 ^ ctx.settings.epsilonExponent :=
        zpow_le_zpow_right₀ (by norm_num) (by omega)

/-- A search that ends has taken a step where the middle was far. -/
theorem Halves.exists_next (hb : Halves exponent k b)
    (hfar : b.middle.farApart ctx.settings exponent = true) {left : Nat}
    (hleft : stepLimit ctx.settings ≤ k + left)
    (hrun : (run ctx exponent working left k b).outcome = .ok r) :
    ∃ left' next, (b.step ctx exponent working).outcome = .ok next ∧
      stepLimit ctx.settings ≤ k + 1 + left' ∧
      (run ctx exponent working left' (k + 1) next).outcome = .ok r := by
  cases left with
  | zero => exact absurd hfar (hb.not_farApart hleft)
  | succ left =>
      rw [run_of_farApart hfar, Traced.outcome_bind] at hrun
      obtain ⟨next, hstep, hrest⟩ := bind_eq_ok_iff.mp hrun
      exact ⟨left, next, hstep, by omega, hrest⟩

/-! ## The end of a search -/

section End

variable (hworking : working < 0) (hpos : 0 < exponent.toRat) (hone : exponent.toRat < 1)

include hworking hpos hone

/-- **The search ends**, in a state whose middle is not far from the exponent, if the roots
that it takes are found: by induction on the steps that are left to it, of which there are
enough. -/
theorem Reaches.exists_end (hmode : ctx.resolveRounding .none = .ok mode)
    (hbase : 0 < base.toRat)
    (hroots : ∀ k b, Reaches ctx base exponent working k b →
      b.middle.farApart ctx.settings exponent = true →
        ∃ root, (b.root.sqrt ctx (.int working)).outcome = .ok root)
    (left : Nat) (h : Reaches ctx base exponent working k b)
    (hleft : stepLimit ctx.settings ≤ k + left) :
    ∃ k' last, Reaches ctx base exponent working k' last ∧
      ¬ last.middle.farApart ctx.settings exponent = true ∧
      (run ctx exponent working left k b).outcome = .ok last.power ∧
      .bisectionFinished k' ∈ (run ctx exponent working left k b).events := by
  have hhalves := h.halves hworking hpos hone
  induction left generalizing k b with
  | zero =>
      -- no step is left, and none is needed
      exact ⟨k, b, h, hhalves.not_farApart hleft, rfl, List.mem_singleton_self _⟩
  | succ left ih =>
      by_cases hfar : b.middle.farApart ctx.settings exponent = true
      · obtain ⟨root, hroot⟩ := hroots k b h hfar
        have hnever : Ends (fun r => 0 < r.toRat) (fun _ => False)
            (b.root.sqrt ctx (.int working)).outcome := by
          rw [hroot]
          exact sqrt_pos hmode (h.root_pos hmode hbase) hroot
        have hends : Ends _ (fun _ => False) (b.step ctx exponent working).outcome :=
          step_ends_of_root hmode hworking hhalves.fractional hnever
        cases hstep : (b.step ctx exponent working).outcome with
        | error f => exact (hends.of_error hstep).elim
        | ok next =>
            have hnext := Reaches.step h hfar hstep
            obtain ⟨k', last, hlast, hnear, houtcome, hevent⟩ :=
              ih hnext (by omega) (hnext.halves hworking hpos hone)
            rw [run_of_farApart hfar, Traced.outcome_bind, hstep, Traced.events_bind_of_ok hstep]
            exact ⟨k', last, hlast, hnear, houtcome, List.mem_append_right _ hevent⟩
      · rw [run_of_near hfar]
        exact ⟨k, b, h, hfar, rfl, List.mem_singleton_self _⟩

/-- The power with an exponent below one is the power of such a state, and the number of steps
is reported. -/
theorem exists_powerBelowOne (hmode : ctx.resolveRounding .none = .ok mode)
    (hbase : 0 < base.toRat) {root : Decimal}
    (hroot : (base.sqrt ctx (.int working)).outcome = .ok root)
    (hroots : ∀ k b, Reaches ctx base exponent working k b →
      b.middle.farApart ctx.settings exponent = true →
        ∃ root, (b.root.sqrt ctx (.int working)).outcome = .ok root) :
    ∃ k last, Reaches ctx base exponent working k last ∧
      ¬ last.middle.farApart ctx.settings exponent = true ∧
      (powerBelowOne ctx base exponent working).outcome = .ok last.power ∧
      .bisectionFinished k ∈ (powerBelowOne ctx base exponent working).events := by
  obtain ⟨k, last, hlast, hnear, houtcome, hevent⟩ :=
    (Reaches.start hroot).exists_end hworking hpos hone hmode hbase hroots
      (stepLimit ctx.settings) (by omega)
  rw [powerBelowOne_of_ne_zero hbase.ne', Traced.outcome_bind, hroot, Traced.events_bind_of_ok hroot]
  exact ⟨k, last, hlast, hnear, houtcome, List.mem_append_right _ hevent⟩

/-- A search that ends goes through every state that it reaches. -/
theorem Reaches.exists_run (h : Reaches ctx base exponent working k b)
    (hbase : 0 < base.toRat) (hr : (powerBelowOne ctx base exponent working).outcome = .ok r) :
    ∃ left, stepLimit ctx.settings ≤ k + left ∧
      (run ctx exponent working left k b).outcome = .ok r := by
  induction h with
  | start hroot =>
      rw [powerBelowOne_of_ne_zero hbase.ne', Traced.outcome_bind, hroot] at hr
      exact ⟨stepLimit ctx.settings, by omega, hr⟩
  | step hb hfar hstep ih =>
      obtain ⟨left, hleft, hrun⟩ := ih
      obtain ⟨left', next, hnext, hleft', hrun'⟩ :=
        (hb.halves hworking hpos hone).exists_next hfar hleft hrun
      rw [hstep] at hnext
      cases hnext
      exact ⟨left', hleft', hrun'⟩

/-- A search that ends has found the roots that it took. -/
theorem Reaches.exists_root (h : Reaches ctx base exponent working k b)
    (hfar : b.middle.farApart ctx.settings exponent = true) (hbase : 0 < base.toRat)
    (hr : (powerBelowOne ctx base exponent working).outcome = .ok r) :
    ∃ root, (b.root.sqrt ctx (.int working)).outcome = .ok root := by
  obtain ⟨left, hleft, hrun⟩ := h.exists_run hworking hpos hone hbase hr
  obtain ⟨_, next, hnext, -⟩ := (h.halves hworking hpos hone).exists_next hfar hleft hrun
  obtain ⟨_, hroot, -⟩ := step_eq_ok hnext
  exact ⟨next.root, hroot⟩

end End

end Bisection

/-! ## The power -/

open Bisection

/-- The numbers of which a power takes the square root: its base and, once the exponent is below
one, the last root for as long as the search goes on. -/
inductive TakesRoot (ctx : Context) (base e : Decimal) (working : Int) : Decimal → Prop where
  | first : TakesRoot ctx base e working base
  | next {n k : Nat} {below : Decimal} {b : Bisection} (hhalved : HalvedTo ctx n e below)
      (hbelow : below.less one = true) (hb : Reaches ctx base below working k b)
      (hfar : b.middle.farApart ctx.settings below = true) :
      TakesRoot ctx base e working b.root

/-- Only a known rounding mode lets a root of a positive number be found. -/
theorem exists_mode_of_sqrt {a : Decimal} (ha : 0 < a.toRat) {precision : Value}
    (h : (a.sqrt ctx precision).outcome = .ok r) :
    ∃ mode, ctx.resolveRounding .none = .ok mode := by
  rw [outcome_sqrt_of_pos ha] at h
  obtain ⟨w, -, h⟩ := bind_eq_ok_iff.mp h
  cases hlimit : ctx.settings.maxRootIterations.toNat with
  | zero =>
      rw [hlimit] at h
      cases h
  | succ left =>
      rw [hlimit, refineRoot, Traced.outcome_bind, Traced.outcome_liftM] at h
      obtain ⟨y, hdivide, -⟩ := bind_eq_ok_iff.mp h
      obtain ⟨-, mode, hmode, -⟩ := eq_quotient_of_divide hdivide
      exact ⟨mode, hmode⟩

/-- An exponent that the halvings bring below one stays positive, and the search for it is the
power. -/
theorem HalvedTo.power_below_eq (h : HalvedTo ctx n e below) (hbelow : below.less one = true)
    (he : 0 < e.toRat) (hworking : ctx.workingPrecision (.int p) = .ok working)
    (base : Decimal) :
    0 < below.toRat ∧ below.toRat < 1 ∧
      base.power ctx below (.int p) = powerBelowOne ctx base below working := by
  have hpos : 0 < below.toRat := by
    rw [h.toRat_eq]
    positivity
  have hone : below.toRat < 1 := by
    rw [less_iff, toRat_one] at hbelow
    exact hbelow
  refine ⟨hpos, hone, ?_⟩
  rw [power_of_lt_one hpos hone, hworking, Traced.liftM_ok_bind]

/-- A power that is found has found the roots that it took. -/
theorem TakesRoot.exists_root {a : Decimal} (h : TakesRoot ctx base e working a)
    (hbase : 0 < base.toRat) (he : 0 < e.toRat) (hint : ¬ e.isInteger = true)
    (hroot : ∃ root, (base.sqrt ctx (.int working)).outcome = .ok root)
    (hneg : working < 0) (hworking : ctx.workingPrecision (.int p) = .ok working)
    (hr : (base.power ctx e (.int p)).outcome = .ok r) :
    ∃ root, (a.sqrt ctx (.int working)).outcome = .ok root := by
  cases h with
  | first => exact hroot
  | next hhalved hbelow hb hfar =>
      obtain ⟨hpos, hone, hpower⟩ := hhalved.power_below_eq hbelow he hworking base
      obtain ⟨r', hr'⟩ := hhalved.exists_power hint hworking hr
      rw [hpower] at hr'
      exact hb.exists_root hneg hpos hone hfar hbase hr'

/-- **A fractional power comes to an end.**  For a positive base and a positive exponent that is
no integer, at every negative precision and under all settings, if the square roots that are
taken are found: every halving of the exponent is exact and leaves no integer, and the halvings
end below one.  There, after `k` steps of the search, the middle is an odd multiple of
`1 / 2 ^ (k + 1)`, and the interval holds the exponent and is `1 / 2 ^ k` wide; so under the
epsilon by default there are at most 162 steps.  The search ends near the exponent, and its
power, squared once for every halving, is the result. -/
theorem power_search_ends (hbase : 0 < base.toRat) (he : 0 < e.toRat)
    (hint : ¬ ∃ i : Int, e.toRat = i) (hp : p < 0)
    (hworking : ctx.workingPrecision (.int p) = .ok working)
    (hroots : ∀ a, TakesRoot ctx base e working a →
      ∃ root, (a.sqrt ctx (.int working)).outcome = .ok root) :
    (∀ n e', HalvedTo ctx n e e' →
      e'.toRat = e.toRat / 2 ^ n ∧ ¬ ∃ i : Int, e'.toRat = i) ∧
    ∃ n below, HalvedTo ctx n e below ∧ below.toRat < 1 ∧
      (∀ k b, Reaches ctx base below working k b →
        (∃ m : Int, b.middle.toRat = (2 * m + 1) / 2 ^ (k + 1)) ∧
        b.low.toRat ≤ below.toRat ∧ below.toRat ≤ b.high.toRat ∧
        b.high.toRat - b.low.toRat = 1 / 2 ^ k ∧
        (ctx.settings.epsilonExponent = -49 → k ≤ 162)) ∧
      ∃ k last, Reaches ctx base below working k last ∧
        ¬ last.middle.farApart ctx.settings below = true ∧
        (base.power ctx e (.int p)).outcome = .ok ((squared working)^[n] last.power) ∧
        .bisectionFinished k ∈ (base.power ctx e (.int p)).events := by
  have hnot : ¬ e.isInteger = true := fun h => hint ((isInteger_iff e).mp h)
  have hneg : working < 0 := by
    obtain ⟨w, hw, hneg⟩ := ctx.exists_workingPrecision hp
    rw [hworking] at hw
    cases hw
    exact hneg
  -- a root that is found shows that divisions have a rounding mode, also those of the exponent
  obtain ⟨root, hroot⟩ := hroots base .first
  obtain ⟨mode, hmode⟩ := exists_mode_of_sqrt hbase hroot
  obtain ⟨N, hN⟩ := pow_unbounded_of_one_lt e.toRat (by norm_num : (1 : ℚ) < 2)
  obtain ⟨n, below, hhalved, hbelow⟩ := exists_halvedTo hmode hnot hN
  obtain ⟨hpos, hone, hpower⟩ := hhalved.power_below_eq hbelow he hworking base
  obtain ⟨k, last, hlast, hnear, houtcome, hevent⟩ :=
    exists_powerBelowOne hneg hpos hone hmode hbase hroot
      fun k b hb hfar => hroots b.root (.next hhalved hbelow hb hfar)
  rw [← hpower] at houtcome hevent
  obtain ⟨hresult, hevents⟩ := hhalved.power_eq hnot hworking houtcome
  refine ⟨?_, n, below, hhalved, hone, ?_, k, last, hlast, hnear, hresult, hevents ▸ hevent⟩
  · intro n e' h
    exact ⟨h.toRat_eq, fun hi => h.not_isInteger hnot ((isInteger_iff e').mpr hi)⟩
  · intro k b hb
    have hhalves := hb.halves hneg hpos hone
    exact ⟨hb.exists_odd hneg hpos hone, hhalves.low_le, hhalves.le_high, hhalves.width,
      hb.le_of_default hneg hpos hone⟩

/-- Two to the power `2.3`, whose roots are found since the power is. -/
theorem power_search_ends_two :
    let ctx := Context.initial {}
    let e : Decimal := ⟨23, -1⟩
    0 < two.toRat ∧ 0 < e.toRat ∧ (¬ ∃ i : Int, e.toRat = i) ∧
      ctx.workingPrecision (.int (-4)) = .ok (-60) ∧
      (∀ a, TakesRoot ctx two e (-60) a →
        ∃ root, (a.sqrt ctx (.int (-60))).outcome = .ok root) ∧
      (∀ n e', HalvedTo ctx n e e' →
        e'.toRat = e.toRat / 2 ^ n ∧ ¬ ∃ i : Int, e'.toRat = i) ∧
      ∃ n below, HalvedTo ctx n e below ∧ below.toRat < 1 ∧
        (∀ k b, Reaches ctx two below (-60) k b →
          (∃ m : Int, b.middle.toRat = (2 * m + 1) / 2 ^ (k + 1)) ∧
          b.low.toRat ≤ below.toRat ∧ below.toRat ≤ b.high.toRat ∧
          b.high.toRat - b.low.toRat = 1 / 2 ^ k ∧
          (ctx.settings.epsilonExponent = -49 → k ≤ 162)) ∧
        ∃ k last, Reaches ctx two below (-60) k last ∧
          ¬ last.middle.farApart ctx.settings below = true ∧
          (two.power ctx e (.int (-4))).outcome = .ok ((squared (-60))^[n] last.power) ∧
          .bisectionFinished k ∈ (two.power ctx e (.int (-4))).events := by
  intro ctx e
  have hbase : 0 < two.toRat := by norm_num
  have he : 0 < e.toRat := by norm_num [e, toRat]
  have hint : ¬ ∃ i : Int, e.toRat = i := by
    rintro ⟨i, hi⟩
    have hten : (23 : ℚ) = 10 * i := by
      rw [← hi]
      norm_num [e, toRat]
    have hodd : (23 : Int) = 10 * i := by exact_mod_cast hten
    omega
  have hworking : ctx.workingPrecision (.int (-4)) = .ok (-60) := rfl
  have hroots : ∀ a, TakesRoot ctx two e (-60) a →
      ∃ root, (a.sqrt ctx (.int (-60))).outcome = .ok root := by
    have hroot : (two.sqrt ctx (.int (-60))).outcome = .ok
        ⟨1414213562373095048801688724209698078569671875376948073176679, -60⟩ :=
      eq_ok_of_toOption (by decide +kernel)
    have hpower : (two.power ctx e (.int (-4))).outcome = .ok
        ⟨4924577653379665137997572276670972439504551044404326211759762, -60⟩ :=
      eq_ok_of_toOption (by decide +kernel)
    exact fun a ha => ha.exists_root hbase he (fun h => hint ((isInteger_iff e).mp h))
      ⟨_, hroot⟩ (by decide) hworking hpower
  exact ⟨hbase, he, hint, hworking, hroots,
    power_search_ends hbase he hint (by decide) hworking hroots⟩

end DecimalCalc.Decimal
