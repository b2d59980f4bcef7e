import DecimalCalc.Proofs.Decimal.CanonicalText
import DecimalCalc.Proofs.Expression.Recursion
import DecimalCalc.Proofs.Expression.Rendering
import DecimalCalc.Proofs.Precision
/-!
# Reading a result

The result of an expression is an expression again, and its own result.  Plain text is read
as the normal form of its number (`Tree.ofSource_plainText`), as long as it is not too long
for a source: it has at least as many characters as digits after the point, so the limit on
exponents is met with the limit on lengths.  A number has nothing to compute, so no
precision and no rounding mode changes it (`evaluate_plainText`).

What stands in the way is the report of the evaluation, which names the precision: with a
precision of too many digits every evaluation is a fault
(`evaluate_numeral_long_precision`).
-/

namespace DecimalCalc

open Numeral

/-- Limits under which no plain text that fits into a source is refused for its digits after
the point or for its sign. -/
structure Settings.ReadNumerals (s : Settings) : Prop where
  literal : s.maxInputLength ≤ s.maxLiteralExponent
  sign : 1 ≤ s.maxDepth

theorem Settings.readNumerals_default : ({} : Settings).ReadNumerals :=
  ⟨by decide, by decide⟩

/-- The digits after the point are a part of the plain text. -/
theorem Decimal.natAbs_exponent_le_length (a : Decimal) :
    a.normalize.exponent.natAbs ≤ a.plainText.length := by
  obtain ⟨whole, fraction, hspells, htext⟩ := a.exists_spells
  have hplaces := hspells.places
  have hpointed : fraction.length ≤ (pointed fraction).length := by
    cases fraction with
    | nil => exact Nat.le_refl 0
    | cons c cs => exact Nat.le_succ _
  have hlength := congrArg List.length htext
  rw [String.length_toList, signed] at hlength
  split at hlength
  · rw [List.length_cons, List.length_append] at hlength
    omega
  · rw [List.length_append] at hlength
    omega

namespace Tree

/-- **Plain text is read as a number**, the normal form, if it is not too long. -/
theorem ofSource_plainText {s : Settings} (hlimits : s.ReadNumerals) (a : Decimal)
    (hlength : (a.plainText.length : Int) ≤ s.maxInputLength) :
    ofSource s a.plainText = .ok (.number a.normalize) := by
  have hexponent := a.natAbs_exponent_le_length
  have hliteral := hlimits.literal
  have hcanonical : (number a.normalize).Canonical s :=
    .number a.normalize_isNormal (by omega)
  have htext : (number a.normalize).parenthesized = a.plainText := a.plainText_normalize
  have hnesting : (number a.normalize).nesting ≤ s.maxDepth.toNat := by
    have hsign := hlimits.sign
    rw [nesting]
    split
    · omega
    · omega
  have hread := hcanonical.ofSource_eq
  rw [htext, if_neg (Int.not_lt.mpr hlength), if_pos hnesting] at hread
  exact hread

end Tree

section Evaluation

variable {ctx : Context} {precision rounding : Value} {p : Int} {mode : Rounding}

/-- **A number is its own result**, under every precision that can be written into a report
and every rounding mode. -/
theorem evaluate_plainText (hlimits : ctx.settings.ReadNumerals) (a : Decimal)
    (hlength : (a.plainText.length : Int) ≤ ctx.settings.maxInputLength)
    (hp : ctx.resolvePrecision precision = .ok p)
    (hmode : ctx.resolveRounding rounding = .ok mode) :
    (evaluate ctx (.text a.plainText) precision rounding).outcome =
      if p.natAbs < tenTo Fault.longestNumeral then .ok (.numeral a.plainText)
      else .error (.fault .numeralTooLong) := by
  have hread := Tree.ofSource_plainText hlimits a hlength
  rw [evaluate, Traced.outcome_bind, outcome_compute hp hmode, hread]
  dsimp only
  rw [Tree.evaluate_eq_value, Tree.value, shownInt]
  split
  · change Except.ok (Written.numeral a.normalize.plainText) = _
    rw [a.plainText_normalize]
  · rfl

/-- A numeral that is written as a result is the plain text of a number. -/
theorem exists_plainText_of_evaluate {source : Value} {text : String}
    (h : (evaluate ctx source precision rounding).outcome = .ok (.numeral text)) :
    ∃ a : Decimal, text = a.plainText := by
  rw [evaluate, Traced.outcome_bind] at h
  obtain ⟨v, -, hwritten⟩ := bind_eq_ok_iff.mp h
  cases v with
  | number a =>
      cases hwritten
      exact ⟨a, rfl⟩
  | truth b => cases hwritten

end Evaluation

/-- **Results are fixed points.**  A numeral that an evaluation gave, if it is not too long
for a source, evaluates to itself, whatever precision and rounding mode are asked for; only
a precision too long for the report is a fault. -/
theorem evaluate_numeral {ctx ctx' : Context} {source precision rounding : Value}
    {text : String}
    (h : (evaluate ctx source precision rounding).outcome = .ok (.numeral text))
    (hlimits : ctx'.settings.ReadNumerals)
    (hlength : (text.length : Int) ≤ ctx'.settings.maxInputLength)
    {precision' rounding' : Value} {p : Int} {mode : Rounding}
    (hp : ctx'.resolvePrecision precision' = .ok p)
    (hmode : ctx'.resolveRounding rounding' = .ok mode) :
    (evaluate ctx' (.text text) precision' rounding').outcome =
      if p.natAbs < tenTo Fault.longestNumeral then .ok (.numeral text)
      else .error (.fault .numeralTooLong) := by
  obtain ⟨a, rfl⟩ := exists_plainText_of_evaluate h
  exact evaluate_plainText hlimits a hlength hp hmode

/-- The theorem on a negative quotient that was cut, and is not rounded again. -/
theorem evaluate_numeral_quotient :
    let ctx := Context.initial {}
    (evaluate ctx (.text "-2 / 3") (.int (-6)) (.text "half_away")).outcome =
      .ok (.numeral "-0.666667") ∧
    (evaluate ctx (.text "-0.666667") (.int (-2)) .none).outcome =
      .ok (.numeral "-0.666667") := by
  intro ctx
  have hfirst : (evaluate ctx (.text "-2 / 3") (.int (-6)) (.text "half_away")).outcome =
      .ok (.numeral "-0.666667") := eq_ok_of_toOption (by decide +kernel)
  have hp : ctx.resolvePrecision (.int (-2)) = .ok (-2) := rfl
  have hmode : ctx.resolveRounding .none = .ok .truncate := rfl
  have hlimits : ctx.settings.ReadNumerals := Settings.readNumerals_default
  have hagain := evaluate_numeral hfirst hlimits (by decide) hp hmode
  refine ⟨hfirst, ?_⟩
  rw [hagain, if_pos (by decide +kernel)]

/-- With a precision of too many digits a result is not its own result: the evaluation of
one is a fault. -/
theorem evaluate_numeral_long_precision :
    let ctx := Context.initial {}
    let p : Int := -(tenTo Fault.longestNumeral : Int)
    p < 0 ∧ (evaluate ctx (.text "1") .none .none).outcome = .ok (.numeral "1") ∧
    (evaluate ctx (.text "1") (.int p) .none).outcome = .error (.fault .numeralTooLong) := by
  intro ctx p
  have htext : Decimal.one.plainText = "1" := by decide +kernel
  have hlimits : ctx.settings.ReadNumerals := Settings.readNumerals_default
  have hmode : ctx.resolveRounding .none = .ok .truncate := rfl
  have hlength : (Decimal.one.plainText.length : Int) ≤ ctx.settings.maxInputLength := by
    rw [htext]
    decide
  have hpower : 0 < tenTo Fault.longestNumeral := tenTo_pos _
  have hneg : p < 0 := Int.neg_neg_of_pos (Int.natCast_pos.mpr hpower)
  have hlong : p.natAbs = tenTo Fault.longestNumeral :=
    (Int.natAbs_neg _).trans (Int.natAbs_natCast _)
  have hpresent : ctx.resolvePrecision .none = .ok (-4) := rfl
  have hgiven : ctx.resolvePrecision (.int p) = .ok p := ctx.resolvePrecision_int hneg
  have hshort := evaluate_plainText hlimits Decimal.one hlength hpresent hmode
  have hfault := evaluate_plainText hlimits Decimal.one hlength hgiven hmode
  rw [if_pos (by decide +kernel), htext] at hshort
  rw [if_neg (Nat.not_lt.mpr hlong.ge), htext] at hfault
  exact ⟨hneg, hshort, hfault⟩

end DecimalCalc
