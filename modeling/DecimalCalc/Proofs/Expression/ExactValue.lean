import DecimalCalc.Proofs.Decimal.IntegralPower
import DecimalCalc.Proofs.Expression.Operations
/-!
# Exact evaluation

A tree of numbers, negations, sums, differences, products and powers with natural
exponents denotes a rational number (`Tree.Denotes`).  Its evaluation gives a form
of exactly that number, under every precision and rounding mode, and a comparison
of two such trees gives the truth about their numbers.

The only thing that can be in the way is a power of the tree beyond the limits
(`Tree.RefusesPower`): `Decimal.power_ends_of_nat` says so for one power, and no other
operation of these trees fails.  So a tree without powers has a value
(`Tree.Denotes.exists_value`), and a tree with a refused power has none.
-/

namespace DecimalCalc

open Numeral

/-! ## Trees -/

/-- The rational number of a tree without quotients and comparisons whose exponents are
natural numbers.  The zeroth power of every number is one. -/
inductive Tree.Denotes : Tree → ℚ → Prop where
  | number (d : Decimal) : Denotes (.number d) d.toRat
  | negate {t : Tree} {x : ℚ} (ht : Denotes t x) : Denotes (.negate t) (-x)
  | add {l r : Tree} {x y : ℚ} (hl : Denotes l x) (hr : Denotes r y) :
      Denotes (.binary .add l r) (x + y)
  | sub {l r : Tree} {x y : ℚ} (hl : Denotes l x) (hr : Denotes r y) :
      Denotes (.binary .sub l r) (x - y)
  | mul {l r : Tree} {x y : ℚ} (hl : Denotes l x) (hr : Denotes r y) :
      Denotes (.binary .mul l r) (x * y)
  | pow {l r : Tree} {x : ℚ} {n : Nat} (hl : Denotes l x) (hr : Denotes r n) :
      Denotes (.binary .pow l r) (x ^ n)

/-- What a comparison says about two rational numbers. -/
def Operator.relates : Operator → ℚ → ℚ → Prop
  | .eq, x, y => x = y
  | .ne, x, y => x ≠ y
  | .lt, x, y => x < y
  | .gt, x, y => y < x
  | .le, x, y => x ≤ y
  | .ge, x, y => y ≤ x
  | _, _, _ => False

/-- A datum is a form of a rational number. -/
def Datum.IsNumber (x : ℚ) (v : Datum) : Prop := ∃ d, v = .number d ∧ d.toRat = x

/-- A datum is the truth value of a statement. -/
def Datum.IsTruth (p : Prop) (v : Datum) : Prop := ∃ b, v = .truth b ∧ (b = true ↔ p)

section Operators

variable (ctx : Context) (precision rounding : Value) {v w : Datum} {x y : ℚ}

section Exact

variable {E : Failure → Prop}

theorem Operator.negate_ends (hv : v.IsNumber x) :
    Ends (Datum.IsNumber (-x)) E (Operator.negate v) := by
  obtain ⟨a, rfl, rfl⟩ := hv
  exact ⟨a.neg, rfl, a.toRat_neg⟩

/-- An operator that joins two numbers by a function exact on them never fails. -/
theorem Operator.exact_ends {op : Operator} {f : Decimal → Decimal → Decimal} {g : ℚ → ℚ → ℚ}
    (happly : ∀ a b, (op.apply ctx (.number a) (.number b) precision rounding).outcome =
      .ok (.number (f a b)))
    (hexact : ∀ a b, (f a b).toRat = g a.toRat b.toRat) (hv : v.IsNumber x)
    (hw : w.IsNumber y) :
    Ends (Datum.IsNumber (g x y)) E (op.apply ctx v w precision rounding).outcome := by
  obtain ⟨a, rfl, rfl⟩ := hv
  obtain ⟨b, rfl, rfl⟩ := hw
  rw [happly]
  exact ⟨f a b, rfl, hexact a b⟩

/-- A comparison of two numbers never fails. -/
theorem Operator.comparison_ends {op : Operator} (hop : op.isComparison = true)
    (hv : v.IsNumber x) (hw : w.IsNumber y) :
    Ends (Datum.IsTruth (op.relates x y)) E
      (op.apply ctx v w precision rounding).outcome := by
  obtain ⟨a, rfl, rfl⟩ := hv
  obtain ⟨b, rfl, rfl⟩ := hw
  cases op with
  | eq => exact ⟨a.equal b, rfl, a.equal_iff b⟩
  | ne => exact ⟨!a.equal b, rfl, by rw [relates, ne_eq, ← a.equal_iff b]; simp⟩
  | lt => exact ⟨a.less b, rfl, a.less_iff b⟩
  | gt => exact ⟨a.greater b, rfl, a.greater_iff b⟩
  | le => exact ⟨a.atMost b, rfl, a.atMost_iff b⟩
  | ge => exact ⟨a.atLeast b, rfl, a.atLeast_iff b⟩
  | add | sub | mul | div | pow | unknown => cases hop

end Exact

/-- A power of numbers with a natural exponent is exact or refused. -/
theorem Operator.pow_ends {n : Nat} {a b : Decimal} (hb : b.toRat = n) :
    Ends (Datum.IsNumber (a.toRat ^ n)) (fun f => 0 < n ∧ PowerRefusal ctx.settings a n f)
      (Operator.pow.apply ctx (.number a) (.number b) precision rounding).outcome := by
  rw [Operator.outcome_pow]
  exact (Decimal.power_ends_of_nat ctx a hb precision).bind fun r hr => ⟨r, rfl, hr⟩

end Operators

namespace Tree

/-! ## Refused powers -/

/-- A power of the tree is refused with a failure: its operands have numbers as their values,
the exponent a positive integer, and these are beyond the limits. -/
def RefusesPower (ctx : Context) (precision rounding : Value) (t : Tree) (f : Failure) : Prop :=
  ∃ l r a b, ∃ n : Nat, binary .pow l r ∈ t.nodes ∧
    (l.evaluate ctx precision rounding).outcome = .ok (.number a) ∧
    (r.evaluate ctx precision rounding).outcome = .ok (.number b) ∧
    b.toRat = n ∧ 0 < n ∧ PowerRefusal ctx.settings a n f

section Evaluation

variable (ctx : Context) (precision rounding : Value) {t u : Tree} {f : Failure} {x y : ℚ}

variable {ctx precision rounding} in
theorem RefusesPower.mono (h : u.RefusesPower ctx precision rounding f)
    (hsub : u.nodes ⊆ t.nodes) : t.RefusesPower ctx precision rounding f := by
  obtain ⟨l, r, a, b, n, hmem, hrest⟩ := h
  exact ⟨l, r, a, b, n, hsub hmem, hrest⟩

variable {ctx precision rounding} in
/-- A tree with a refused power has no value: the power has none. -/
theorem RefusesPower.not_succeeds (h : t.RefusesPower ctx precision rounding f) :
    ¬ t.Succeeds ctx precision rounding := by
  obtain ⟨l, r, a, b, n, hmem, hl, hr, hb, hpos, hrefused⟩ := h
  intro hsucceeds
  obtain ⟨v, hv⟩ := hsucceeds.of_mem_nodes _ hmem
  have hpower : (a.power ctx b precision).outcome = .error f := by
    have hint : b.toRat = ((n : Int) : ℚ) := by rw [hb, Int.cast_natCast]
    rw [Decimal.outcome_power_of_int hint (by omega)]
    exact Decimal.integralPower_eq_error_iff.mpr hrefused
  rw [outcome_evaluate_binary, hl, hr, ok_bind, ok_bind, Operator.outcome_pow, hpower] at hv
  cases hv

/-! ## Values -/

/-- Two operands and then an operator: what fails is a power of an operand, or the operator on
their values. -/
theorem evaluate_binary_ends {op : Operator} {l r : Tree} {P Q R : Datum → Prop}
    (hl : Ends P (l.RefusesPower ctx precision rounding)
      (l.evaluate ctx precision rounding).outcome)
    (hr : Ends Q (r.RefusesPower ctx precision rounding)
      (r.evaluate ctx precision rounding).outcome)
    (hop : ∀ v w, (l.evaluate ctx precision rounding).outcome = .ok v →
      (r.evaluate ctx precision rounding).outcome = .ok w → P v → Q w →
      Ends R ((binary op l r).RefusesPower ctx precision rounding)
        (op.apply ctx v w precision rounding).outcome) :
    Ends R ((binary op l r).RefusesPower ctx precision rounding)
      ((binary op l r).evaluate ctx precision rounding).outcome := by
  have hleft : l.nodes ⊆ (binary op l r).nodes := by
    rw [nodes_binary, List.append_assoc]
    exact List.subset_append_left _ _
  have hright : r.nodes ⊆ (binary op l r).nodes := by
    rw [nodes_binary]
    exact List.subset_append_of_subset_left _ (List.subset_append_right _ _)
  rw [outcome_evaluate_binary]
  refine (hl.mono_error fun _ hf => hf.mono hleft).bind_of_ok fun v hv hP => ?_
  refine (hr.mono_error fun _ hf => hf.mono hright).bind_of_ok fun w hw hQ => ?_
  exact hop v w hv hw hP hQ

/-- **Exact values.**  By induction on why the tree denotes its number. -/
theorem Denotes.evaluate_ends (h : t.Denotes x) :
    Ends (Datum.IsNumber x) (t.RefusesPower ctx precision rounding)
      (t.evaluate ctx precision rounding).outcome := by
  induction h with
  | number d =>
      rw [outcome_evaluate_number]
      exact ⟨d, rfl, rfl⟩
  | @negate t x ht ih =>
      have hsub : t.nodes ⊆ (Tree.negate t).nodes := by
        rw [nodes_negate]
        exact List.subset_append_left _ _
      rw [outcome_evaluate_negate]
      exact (ih.mono_error fun _ hf => hf.mono hsub).bind fun v hv =>
        Operator.negate_ends hv
  | add hl hr ihLeft ihRight =>
      exact evaluate_binary_ends ctx precision rounding ihLeft ihRight fun _ _ _ _ =>
        Operator.exact_ends ctx precision rounding (g := (· + ·)) (fun _ _ => rfl)
          Decimal.toRat_add
  | sub hl hr ihLeft ihRight =>
      exact evaluate_binary_ends ctx precision rounding ihLeft ihRight fun _ _ _ _ =>
        Operator.exact_ends ctx precision rounding (g := (· - ·)) (fun _ _ => rfl)
          Decimal.toRat_sub
  | mul hl hr ihLeft ihRight =>
      exact evaluate_binary_ends ctx precision rounding ihLeft ihRight fun _ _ _ _ =>
        Operator.exact_ends ctx precision rounding (g := (· * ·)) (fun _ _ => rfl)
          Decimal.toRat_mul
  | @pow l r x n hl hr ihLeft ihRight =>
      refine evaluate_binary_ends ctx precision rounding ihLeft ihRight ?_
      rintro _ _ hleft hright ⟨a, rfl, rfl⟩ ⟨b, rfl, hb⟩
      refine (Operator.pow_ends ctx precision rounding hb).mono_error ?_
      rintro f ⟨hpos, hrefused⟩
      exact ⟨l, r, a, b, n, self_mem_nodes _, hleft, hright, hb, hpos, hrefused⟩

/-- A tree without powers has its number as the value. -/
theorem Denotes.exists_value (h : t.Denotes x) (hfree : ∀ l r, binary .pow l r ∉ t.nodes) :
    ∃ d : Decimal, (t.evaluate ctx precision rounding).outcome = .ok (.number d) ∧
      d.toRat = x := by
  have hends := h.evaluate_ends ctx precision rounding
  cases hvalue : (t.evaluate ctx precision rounding).outcome with
  | ok v =>
      obtain ⟨d, rfl, hd⟩ := hends.of_ok hvalue
      exact ⟨d, rfl, hd⟩
  | error f =>
      obtain ⟨l, r, _, _, _, hmem, -⟩ := hends.of_error hvalue
      exact absurd hmem (hfree l r)

/-- **Evaluation without quotients is exact.**  A tree that denotes a number evaluates to a
form of it, and a comparison of two such trees to the truth about their numbers, whatever
the precision and the rounding mode, unless one of the powers in the tree is refused for the
values of its operands.  No tree with such a power has a value. -/
theorem evaluate_exact :
    (∀ t x, Denotes t x →
      Ends (Datum.IsNumber x) (t.RefusesPower ctx precision rounding)
        (t.evaluate ctx precision rounding).outcome) ∧
    (∀ op l r x y, op.isComparison = true → Denotes l x → Denotes r y →
      Ends (Datum.IsTruth (op.relates x y))
        ((binary op l r).RefusesPower ctx precision rounding)
        ((binary op l r).evaluate ctx precision rounding).outcome) ∧
    ∀ (t : Tree) (f : Failure), t.RefusesPower ctx precision rounding f →
      ¬ t.Succeeds ctx precision rounding := by
  refine ⟨fun t x h => h.evaluate_ends ctx precision rounding, ?_, fun t f h => h.not_succeeds⟩
  intro op l r x y hop hl hr
  exact evaluate_binary_ends ctx precision rounding (hl.evaluate_ends ctx precision rounding)
    (hr.evaluate_ends ctx precision rounding) fun _ _ _ _ hv hw =>
      Operator.comparison_ends ctx precision rounding hop hv hw

end Evaluation

/-- The zeroth power of zero is equal to a one with a superfluous digit, and the evaluation says
so; a two to a power above the limit is refused, and its tree has no value. -/
theorem evaluate_exact_zeroth_power :
    let ctx := Context.initial {}
    let l : Tree := .binary .pow (.number ⟨0, 3⟩) (.number ⟨0, -2⟩)
    let r : Tree := .negate (.number ⟨-10, -1⟩)
    let large : Tree := .binary .pow (.number ⟨2, 0⟩) (.number ⟨100001, 0⟩)
    let refusal : Failure := .error (.exponentTooLarge "100001" 100000)
    (Denotes l 1 ∧ Denotes r 1 ∧
      ((binary .eq l r).evaluate ctx (.int (-4)) (.text "truncate")).outcome =
        .ok (.truth true) ∧
      Datum.IsTruth ((1 : ℚ) = 1) (.truth true)) ∧
    large.RefusesPower ctx (.int (-4)) (.text "truncate") refusal ∧
      ¬ large.Succeeds ctx (.int (-4)) (.text "truncate") := by
  intro ctx l r large refusal
  have hexponent : Denotes (.number ⟨0, -2⟩) ((0 : Nat) : ℚ) := by
    have hzero : Denotes (.number ⟨0, -2⟩) (⟨0, -2⟩ : Decimal).toRat := .number _
    simpa [Decimal.toRat] using hzero
  have hl : Denotes l 1 := by
    have hpower : Denotes l ((⟨0, 3⟩ : Decimal).toRat ^ 0) := .pow (.number _) hexponent
    simpa using hpower
  have hr : Denotes r 1 := by
    have hminus : Denotes r (-(⟨-10, -1⟩ : Decimal).toRat) := .negate (.number _)
    simpa [Decimal.toRat] using hminus
  obtain ⟨-, hcomparison, hrefused⟩ := evaluate_exact ctx (.int (-4)) (.text "truncate")
  have hvalue : ((binary .eq l r).evaluate ctx (.int (-4)) (.text "truncate")).outcome =
      .ok (.truth true) := by
    rw [evaluate_eq_value]
    rfl
  have hlarge : large.RefusesPower ctx (.int (-4)) (.text "truncate") refusal := by
    refine ⟨_, _, ⟨2, 0⟩, ⟨100001, 0⟩, 100001, self_mem_nodes _, outcome_evaluate_number _,
      outcome_evaluate_number _, by simp [Decimal.toRat], by decide, ?_⟩
    exact PowerRefusal.exponent (by decide) (by decide +kernel)
  exact ⟨⟨hl, hr, hvalue, (hcomparison .eq l r 1 1 rfl hl hr).of_ok hvalue⟩, hlarge,
    hrefused large refusal hlarge⟩

end Tree

end DecimalCalc
