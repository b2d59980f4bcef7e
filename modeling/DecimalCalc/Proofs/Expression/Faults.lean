import DecimalCalc.Proofs.Decimal.PowerFaults
import DecimalCalc.Proofs.Expression.Recursion
/-!
# Faults of expressions

Under a precision that was settled, an expression fails for causes that are known, with two
exceptions, both of them an integer that cannot be written: the exponent of a power, in its
refusal, and the precision itself, in the report of the evaluation.

An operator faults at such a power alone (`Operator.faults_apply_iff`), so a tree does where
its evaluation comes to one (`Tree.faults_evaluate_iff`), and a source that has a tree does
there or for its precision (`faults_compute_iff`).
-/

namespace DecimalCalc

open Numeral

/-- The evaluation of a tree comes to a power with an exponent too long to be shown: both
operands of the power have their values, and so has everything left of it. -/
inductive Tree.ReachesLongPower (ctx : Context) (precision rounding : Value) : Tree → Prop where
  | power {l r : Tree} {base e : Decimal}
      (hl : (l.evaluate ctx precision rounding).outcome = .ok (.number base))
      (hr : (r.evaluate ctx precision rounding).outcome = .ok (.number e))
      (hlong : e.IsLongExponent ctx.settings) :
      ReachesLongPower ctx precision rounding (.binary .pow l r)
  | left {op : Operator} {l r : Tree} (hl : ReachesLongPower ctx precision rounding l) :
      ReachesLongPower ctx precision rounding (.binary op l r)
  | right {op : Operator} {l r : Tree} {v : Datum}
      (hl : (l.evaluate ctx precision rounding).outcome = .ok v)
      (hr : ReachesLongPower ctx precision rounding r) :
      ReachesLongPower ctx precision rounding (.binary op l r)
  | negate {t : Tree} (ht : ReachesLongPower ctx precision rounding t) :
      ReachesLongPower ctx precision rounding (.negate t)

variable {ctx : Context} {p : Int} {precision rounding : Value}

theorem Operator.not_faults_negate (v : Datum) : ¬ Faults (negate v) := by
  cases v with
  | number d => exact not_faults_ok _
  | truth b => exact not_faults_error _

theorem Operator.operand_faultless (name : String) (v : Datum) :
    Faultless (fun _ => True) (operand name v) := by
  cases v with
  | number d => exact trivial
  | truth b => exact trivial

/-- An operator other than the power fails for known causes only. -/
theorem Operator.apply_faultless {op : Operator} (hop : op ≠ .pow) (v w : Datum) (hp : p < 0)
    (hrounding : Faultless (fun _ => True) (ctx.resolveRounding rounding)) :
    Faultless (fun _ => True) (op.apply ctx v w (.int p) rounding).outcome := by
  unfold apply
  simp only [Traced.outcome_bind, Traced.outcome_liftM]
  refine (operand_faultless op.name v).bind fun a _ => ?_
  refine (operand_faultless op.name w).bind fun b _ => ?_
  cases op with
  | pow => exact absurd rfl hop
  | div =>
      dsimp only
      split
      · exact trivial
      · simp only [Traced.outcome_bind, Traced.outcome_liftM]
        exact (a.divide_faultless b hp hrounding).bind fun q _ => trivial
  | add | sub | mul | eq | ne | lt | gt | le | ge | unknown => exact trivial

/-- A power faults with its exponent; an operand that is no number is a known cause. -/
theorem Operator.faults_pow_iff (v w : Datum) (hp : p < 0) :
    Faults (pow.apply ctx v w (.int p) rounding).outcome ↔
      ∃ base e, v = .number base ∧ w = .number e ∧ e.IsLongExponent ctx.settings := by
  cases v with
  | truth b =>
      refine iff_of_false (not_faults_error _) ?_
      rintro ⟨_, _, hv, -⟩
      cases hv
  | number a =>
      cases w with
      | truth b =>
          refine iff_of_false (not_faults_error _) ?_
          rintro ⟨_, _, -, hw, -⟩
          cases hw
      | number b =>
          have hnumber : ∀ r : Decimal, ¬ Faults (.ok (.number r) : Except Failure Datum) :=
            fun r => not_faults_ok _
          have hpower : Faults (pow.apply ctx (.number a) (.number b) (.int p) rounding).outcome ↔
              b.IsLongExponent ctx.settings := by
            rw [outcome_pow]
            exact (faults_bind_iff_left hnumber).trans (Decimal.faults_power_iff a b hp)
          rw [hpower]
          constructor
          · intro h
            exact ⟨a, b, rfl, rfl, h⟩
          · rintro ⟨_, _, -, hw, h⟩
            cases hw
            exact h

theorem Operator.faults_apply_iff (op : Operator) (v w : Datum) (hp : p < 0)
    (hrounding : Faultless (fun _ => True) (ctx.resolveRounding rounding)) :
    Faults (op.apply ctx v w (.int p) rounding).outcome ↔
      op = .pow ∧ ∃ base e, v = .number base ∧ w = .number e ∧
        e.IsLongExponent ctx.settings := by
  by_cases hop : op = .pow
  · subst hop
    rw [faults_pow_iff v w hp, eq_self, true_and]
  · exact iff_of_false (apply_faultless hop v w hp hrounding).not_faults fun h => hop h.1

/-- **The faults of a tree**, by induction on it. -/
theorem Tree.faults_evaluate_iff (t : Tree) (hp : p < 0)
    (hrounding : Faultless (fun _ => True) (ctx.resolveRounding rounding)) :
    Faults (t.evaluate ctx (.int p) rounding).outcome ↔
      t.ReachesLongPower ctx (.int p) rounding := by
  induction t with
  | number d =>
      rw [evaluate_eq_value]
      refine iff_of_false (not_faults_ok _) fun h => ?_
      cases h
  | negate t ih =>
      rw [outcome_evaluate_negate, faults_bind_iff, ih]
      constructor
      · rintro (h | ⟨v, -, h⟩)
        · exact .negate h
        · exact absurd h (Operator.not_faults_negate v)
      · intro h
        cases h with
        | negate ht => exact .inl ht
  | binary op l r ihLeft ihRight =>
      simp only [outcome_evaluate_binary, faults_bind_iff, ihLeft, ihRight,
        Operator.faults_apply_iff op _ _ hp hrounding]
      constructor
      · rintro (h | ⟨v, hv, h | ⟨w, hw, rfl, base, e, rfl, rfl, hlong⟩⟩)
        · exact .left h
        · exact .right hv h
        · exact .power hv hw hlong
      · intro h
        cases h with
        | power hl hr hlong => exact .inr ⟨_, hl, .inr ⟨_, hr, rfl, _, _, rfl, rfl, hlong⟩⟩
        | left hl => exact .inl hl
        | right hl hr => exact .inr ⟨_, hl, .inl hr⟩

/-- **The faults of a source** with settled precision and rounding mode. -/
theorem faults_compute_iff {mode : Rounding} (hneg : p < 0)
    (hp : ctx.resolvePrecision precision = .ok p)
    (hmode : ctx.resolveRounding rounding = .ok mode) (source : String) :
    Faults (compute ctx (.text source) precision rounding).outcome ↔
      ∃ t, Tree.ofSource ctx.settings source = .ok t ∧
        (tenTo Fault.longestNumeral ≤ p.natAbs ∨
          t.ReachesLongPower ctx (.int p) (.text mode.name)) := by
  rw [outcome_compute hp hmode]
  cases Tree.ofSource ctx.settings source with
  | error e =>
      refine iff_of_false (not_faults_error e) ?_
      rintro ⟨t, ht, -⟩
      cases ht
  | ok t =>
      dsimp only
      rw [faults_bind_iff, Decimal.faults_shownInt_iff,
        t.faults_evaluate_iff hneg (ctx.resolveRounding_text mode.name)]
      constructor
      · rintro (hlong | ⟨_, -, hreach⟩)
        · exact ⟨t, rfl, .inl hlong⟩
        · exact ⟨t, rfl, .inr hreach⟩
      · rintro ⟨t, ⟨⟩, hlong | hreach⟩
        · exact .inl hlong
        · by_cases hlong : tenTo Fault.longestNumeral ≤ p.natAbs
          · exact .inl hlong
          · exact .inr ⟨intText p, if_pos (Nat.not_le.mp hlong), hreach⟩

end DecimalCalc
