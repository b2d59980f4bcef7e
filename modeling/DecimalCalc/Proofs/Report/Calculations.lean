import DecimalCalc.Proofs.Decimal.PlaceRounding
import DecimalCalc.Proofs.Decimal.CanonicalText
import DecimalCalc.Proofs.Decimal.ScientificText
import DecimalCalc.Proofs.Expression.LiteralReading
import DecimalCalc.Proofs.Session.Runs
import DecimalCalc.Report.Calculation
/-!
# Calculations and expressions

A calculation by name and an expression with one operator reach the same arithmetic on
different ways: the calculation takes its operands in the form that their literals have, the
expression takes the normal forms.  Sums, differences and products do not depend on the form,
so their reports are the same.

A quotient does, for it is rounded at a place that the exponents of the operands decide.
`calculation_as_expression` says at which place either of them rounds, and that the reports
are the same exactly if the rounded quotients are; in `calculation_of_longer_literal` they
are not.
-/

namespace DecimalCalc

open Numeral

/-! ## Reports of numbers -/

/-- **Reports are equal** exactly for forms of one number. -/
theorem Report.ofDecimal_eq_iff (a b : Decimal) : ofDecimal a = ofDecimal b ↔ a.toRat = b.toRat := by
  rw [← Decimal.plainText_eq_iff]
  constructor
  · intro h
    have hresult : (ofDecimal a).result = (ofDecimal b).result := congrArg Report.result h
    exact Field.text.inj (Option.some.inj hresult)
  · intro h
    rw [ofDecimal, ofDecimal, h,
      (Decimal.scientificText_eq_iff a b).mpr ((Decimal.plainText_eq_iff a b).mp h)]

/-- The calculation that an operator stands for. -/
def Operator.calculation : Operator → String
  | .add => "add"
  | .sub => "sub"
  | .mul => "mul"
  | .div => "div"
  | .pow => "pow"
  | op => op.name

theorem Operator.length_name {op : Operator} (hop : op ∈ [add, sub, mul, div]) :
    op.name.length = 1 := by
  simp only [List.mem_cons, List.not_mem_nil, or_false] at hop
  rcases hop with rfl | rfl | rfl | rfl <;> rfl

theorem Operator.length_source (op : Operator) (x y : String) :
    (op.source x y).length = x.length + op.name.length + y.length + 2 := by
  simp only [source, String.length_append]
  have hspace : " ".length = 1 := rfl
  omega

section Reports

variable {ctx : Context} {precision rounding : Value} {x y : String} {a b : Decimal}

/-- The report of a calculation with two literals. -/
theorem Calculation.outcome_report {name : String} {f : Decimal → Decimal → Traced Decimal}
    (hunary : unary? ctx precision name = none) (hbinary : binary? ctx precision name = some f)
    (hx : Decimal.ofText x .none = .ok a) (hy : Decimal.ofText y .none = .ok b) {c : Decimal}
    (hc : (f a b).outcome = .ok c) :
    (report ctx name [.text x, .text y] precision).outcome = .ok (Report.ofDecimal c) := by
  have hnumbers : ([.text x, .text y] : List Value).mapM (fun v => Decimal.ofValue ctx v .none) =
      .ok [a, b] := by
    simp only [List.mapM_cons, List.mapM_nil, Decimal.ofValue, hx, hy]
    rfl
  unfold report run
  rw [hnumbers, hunary, hbinary]
  dsimp only
  rw [hc]

/-- The value of an operation on literals is that of the operator on their normal forms. -/
theorem outcome_compute_operation {op : Operator} (hop : op ∈ Operator.known)
    (hx : IsLiteral ctx.settings x a) (hy : IsLiteral ctx.settings y b)
    (hlength : ((op.source x y).length : Int) ≤ ctx.settings.maxInputLength)
    (hdepth : max (Literal.signs x) (Literal.signs y + if op = .pow then 1 else 0) ≤
      ctx.settings.maxDepth.toNat)
    {p : Int} {mode : Rounding} (hp : ctx.resolvePrecision precision = .ok p)
    (hmode : ctx.resolveRounding rounding = .ok mode)
    (hshort : p.natAbs < tenTo Fault.longestNumeral) :
    (compute ctx (.text (op.source x y)) precision rounding).outcome =
      (op.apply ctx (.number a.normalize) (.number b.normalize) (.int p)
        (.text mode.name)).outcome := by
  have hshown : shownInt p = .ok (intText p) := if_pos hshort
  rw [outcome_compute hp hmode, Tree.ofSource_operation hop hx hy hlength hdepth]
  dsimp only
  rw [hshown, ok_bind, Tree.outcome_evaluate_binary]
  simp only [Tree.evaluate_eq_value, Tree.value, Traced.outcome_pure, ok_bind]

end Reports

section Session

variable {settings : Settings} {s : Session} {mode : Rounding} {x y : String} {a b : Decimal}
  {p : Int}

/-- The answer to an operation on literals, in the reports of both ways. -/
theorem Session.Sound.reports (h : s.Sound settings)
    (hrounding : s.context.resolveRounding .none = .ok mode)
    (hx : IsLiteral settings x a) (hy : IsLiteral settings y b) (hp : p < 0)
    (hshort : p.natAbs < tenTo Fault.longestNumeral) {op : Operator}
    (hop : op ∈ [Operator.add, .sub, .mul, .div])
    (hlength : ((op.source x y).length : Int) ≤ settings.maxInputLength)
    (hdepth : max (Literal.signs x) (Literal.signs y) ≤ settings.maxDepth.toNat)
    {c : Decimal} (hc : (op.apply s.context (.number a.normalize) (.number b.normalize)
      (.int p) (.text mode.name)).outcome = .ok (.number c)) :
    Report.ofAnswer (s.answer (.text (op.source x y)) (.int p) .none).answer =
      Report.ofDecimal c := by
  have hknown : op ∈ Operator.known ∧ op ≠ .pow := by
    simp only [List.mem_cons, List.not_mem_nil, or_false] at hop
    rcases hop with rfl | rfl | rfl | rfl <;> exact ⟨by decide, by decide⟩
  obtain rfl := h.settings_eq
  have hopened : max (Literal.signs x) (Literal.signs y + if op = .pow then 1 else 0) ≤
      s.context.settings.maxDepth.toNat := by
    rw [if_neg hknown.2]
    exact hdepth
  rw [h.answer_eq, outcome_compute_operation hknown.1 hx hy hlength hopened
    (s.context.resolvePrecision_int hp) hrounding hshort, hc]
  rfl

end Session

/-- **Calculations and expressions agree, but for the place of a quotient.**  In any session
of a program that was started in an environment with a known rounding mode, let two literals
and a precision be given that are within the limits.  The sum, the difference and the product
are reported exactly, and alike.  The quotient by a number other than zero is reported as the
exact quotient, rounded at a place: by the calculation, at the place of the literals as they
are written, and by the expression, at that of their normal forms.  The reports are the same
exactly if the rounded quotients are, so they are wherever the places are. -/
theorem calculation_as_expression {env : List (String × String)} {first : Session}
    (hstart : Session.ofEnvironment env = .ok first) (requests : List Request)
    {mode : Rounding} (hrounding : first.context.resolveRounding .none = .ok mode)
    {x y : String} {a b : Decimal} (hx : IsLiteral first.context.settings x a)
    (hy : IsLiteral first.context.settings y b) {p : Int} (hp : p < 0)
    (hshort : p.natAbs < tenTo Fault.longestNumeral)
    (hlength : (x.length + y.length + 3 : Int) ≤ first.context.settings.maxInputLength)
    (hdepth : max (Literal.signs x) (Literal.signs y) ≤ first.context.settings.maxDepth.toNat) :
    let s := first.run requests
    let calculated := fun op : Operator =>
      (Calculation.report s.context op.calculation [.text x, .text y] (.int p)).outcome
    let answered := fun op : Operator =>
      Report.ofAnswer (s.answer (.text (op.source x y)) (.int p) .none).answer
    (∀ op q, (op, q) ∈ [(Operator.add, a.toRat + b.toRat), (.sub, a.toRat - b.toRat),
        (.mul, a.toRat * b.toRat)] →
      ∃ c : Decimal, c.toRat = q ∧ calculated op = .ok (.ofDecimal c) ∧
        answered op = .ofDecimal c) ∧
    (b.toRat ≠ 0 →
      let quotient := a.toRat / b.toRat
      let written := mode.atPlace (a.quotientPlace b p) quotient
      let reduced := mode.atPlace (a.normalize.quotientPlace b.normalize p) quotient
      (∃ c : Decimal, c.toRat = written ∧ calculated .div = .ok (.ofDecimal c)) ∧
      (∃ c : Decimal, c.toRat = reduced ∧ answered .div = .ofDecimal c) ∧
      (calculated .div = .ok (answered .div) ↔ written = reduced)) := by
  intro s calculated answered
  obtain ⟨hsound, -⟩ := (Session.sound_ofEnvironment hstart).run requests
  have hmode : s.context.resolveRounding .none = .ok mode := by
    rw [← hrounding]
    simp only [Context.resolveRounding, s, hsound.settings_eq]
  have hreports : ∀ op ∈ [Operator.add, .sub, .mul, .div], ∀ c,
      (op.apply s.context (.number a.normalize) (.number b.normalize) (.int p)
        (.text mode.name)).outcome = .ok (.number c) → answered op = .ofDecimal c := by
    intro op hop c hc
    refine hsound.reports hmode hx hy hp hshort hop ?_ hdepth hc
    rw [op.length_source, Operator.length_name hop]
    push_cast
    linarith
  -- where the form does not matter, both ways report the number in the form of the literals
  have hsame : ∀ op ∈ [Operator.add, .sub, .mul, .div], ∀ c d, d.toRat = c.toRat →
      (op.apply s.context (.number a.normalize) (.number b.normalize) (.int p)
        (.text mode.name)).outcome = .ok (.number d) → answered op = .ofDecimal c := by
    intro op hop c d hvalue hd
    rw [hreports op hop d hd, Report.ofDecimal_eq_iff, hvalue]
  refine ⟨?_, ?_⟩
  · intro op q hq
    simp only [List.mem_cons, List.not_mem_nil, or_false, Prod.mk.injEq] at hq
    rcases hq with ⟨rfl, rfl⟩ | ⟨rfl, rfl⟩ | ⟨rfl, rfl⟩
    · have hforms : (a.normalize.add b.normalize).toRat = (a.add b).toRat := by
        simp only [Decimal.toRat_add, Decimal.toRat_normalize]
      exact ⟨a.add b, a.toRat_add b, Calculation.outcome_report rfl rfl hx.value hy.value rfl,
        hsame .add (by simp) _ _ hforms rfl⟩
    · have hforms : (a.normalize.sub b.normalize).toRat = (a.sub b).toRat := by
        simp only [Decimal.toRat_sub, Decimal.toRat_normalize]
      exact ⟨a.sub b, a.toRat_sub b, Calculation.outcome_report rfl rfl hx.value hy.value rfl,
        hsame .sub (by simp) _ _ hforms rfl⟩
    · have hforms : (a.normalize.mul b.normalize).toRat = (a.mul b).toRat := by
        simp only [Decimal.toRat_mul, Decimal.toRat_normalize]
      exact ⟨a.mul b, a.toRat_mul b, Calculation.outcome_report rfl rfl hx.value hy.value rfl,
        hsame .mul (by simp) _ _ hforms rfl⟩
  · intro hb quotient written reduced
    have hb' : b.normalize.toRat ≠ 0 := by rwa [Decimal.toRat_normalize]
    have hcalculated : calculated .div = .ok (.ofDecimal (a.quotient b p mode)) := by
      refine Calculation.outcome_report rfl rfl hx.value hy.value ?_
      exact a.divide_eq_quotient hb (s.context.resolvePrecision_int hp) hmode
    have hanswered : answered .div = .ofDecimal (a.normalize.quotient b.normalize p mode) := by
      have hquotient := a.normalize.divide_eq_quotient hb' (s.context.resolvePrecision_int hp)
        (s.context.resolveRounding_name mode)
      have hzero : ¬ b.normalize.isZero = true := fun h => hb' ((Decimal.isZero_iff _).mp h)
      apply hreports .div (by simp)
      simp only [Operator.apply, Operator.operand, Traced.outcome_bind, Traced.outcome_liftM,
        Traced.outcome_pure, ok_bind, if_neg hzero, hquotient]
    have hwritten : (a.quotient b p mode).toRat = written := a.toRat_quotient hb p mode
    have hreduced : (a.normalize.quotient b.normalize p mode).toRat = reduced := by
      rw [a.normalize.toRat_quotient hb' p mode, Decimal.toRat_normalize,
        Decimal.toRat_normalize]
    refine ⟨⟨_, hwritten, hcalculated⟩, ⟨_, hreduced, hanswered⟩, ?_⟩
    rw [hcalculated, hanswered, Except.ok.injEq, Report.ofDecimal_eq_iff, hwritten, hreduced]

/-- The theorem on a literal with a superfluous zero and one with a power of ten, whose
quotients are rounded at the same place in both ways. -/
theorem calculation_as_expression_halves :
    let s := Session.start {}
    Session.ofEnvironment [] = .ok s ∧
    IsLiteral {} "-1.50" ⟨-150, -2⟩ ∧ IsLiteral {} "4e-1" ⟨4, -1⟩ ∧
    ∀ op ∈ [Operator.add, .sub, .mul, .div],
      (Calculation.report s.context op.calculation [.text "-1.50", .text "4e-1"]
        (.int (-4))).outcome =
      .ok (.ofAnswer (s.answer (.text (op.source "-1.50" "4e-1")) (.int (-4)) .none).answer) := by
  intro s
  have hstart : Session.ofEnvironment [] = .ok s := rfl
  have hx : IsLiteral {} "-1.50" ⟨-150, -2⟩ :=
    ⟨rfl, [⟨.operator .sub, 0⟩, ⟨.number "1.50" ⟨15, -1⟩, 1⟩],
      eq_ok_of_toOption (by decide +kernel)⟩
  have hy : IsLiteral {} "4e-1" ⟨4, -1⟩ :=
    ⟨rfl, [⟨.number "4e-1" ⟨4, -1⟩, 0⟩], eq_ok_of_toOption (by decide +kernel)⟩
  have hrounding : s.context.resolveRounding .none = .ok .truncate := rfl
  have hnonzero : (⟨4, -1⟩ : Decimal).toRat ≠ 0 := by norm_num [Decimal.toRat]
  obtain ⟨hexact, hdivision⟩ := calculation_as_expression hstart [] hrounding hx hy
    (by decide : (-4 : Int) < 0) (by decide +kernel) (by decide) (by decide)
  obtain ⟨-, -, hsame⟩ := hdivision hnonzero
  refine ⟨hstart, hx, hy, ?_⟩
  intro op hop
  simp only [List.mem_cons, List.not_mem_nil, or_false] at hop
  rcases hop with rfl | rfl | rfl | rfl
  · obtain ⟨c, -, hcalculated, hanswered⟩ := hexact .add _ (.head _)
    exact hcalculated.trans (congrArg Except.ok hanswered.symm)
  · obtain ⟨c, -, hcalculated, hanswered⟩ := hexact .sub _ (.tail _ (.head _))
    exact hcalculated.trans (congrArg Except.ok hanswered.symm)
  · obtain ⟨c, -, hcalculated, hanswered⟩ := hexact .mul _ (.tail _ (.tail _ (.head _)))
    exact hcalculated.trans (congrArg Except.ok hanswered.symm)
  · have hplace : (⟨-150, -2⟩ : Decimal).quotientPlace ⟨4, -1⟩ (-4) =
        (⟨-150, -2⟩ : Decimal).normalize.quotientPlace (⟨4, -1⟩ : Decimal).normalize (-4) := by
      decide +kernel
    exact hsame.mpr (by rw [hplace])

/-- **A quotient of a longer literal has more digits.**  The zeros that a literal ends in are
digits of a calculation, and not of an expression. -/
theorem calculation_of_longer_literal :
    let s := Session.start {}
    Session.ofEnvironment [] = .ok s ∧
    IsLiteral {} "1.000" ⟨1000, -3⟩ ∧ IsLiteral {} "3" ⟨3, 0⟩ ∧
    ∃ calculated answered : Report,
      (Calculation.report s.context "div" [.text "1.000", .text "3"] (.int (-1))).outcome =
        .ok calculated ∧
      Report.ofAnswer (s.answer (.text "1.000 / 3") (.int (-1)) .none).answer = answered ∧
      calculated.result = some (.text "0.333") ∧ answered.result = some (.text "0.3") ∧
      calculated.scientific ≠ answered.scientific := by
  intro s
  have hx : IsLiteral {} "1.000" ⟨1000, -3⟩ :=
    ⟨rfl, [⟨.number "1.000" ⟨1, 0⟩, 0⟩], eq_ok_of_toOption (by decide +kernel)⟩
  have hy : IsLiteral {} "3" ⟨3, 0⟩ :=
    ⟨rfl, [⟨.number "3" ⟨3, 0⟩, 0⟩], eq_ok_of_toOption (by decide +kernel)⟩
  refine ⟨rfl, hx, hy, Report.ofDecimal ⟨333, -3⟩, Report.ofDecimal ⟨3, -1⟩, ?_, ?_, ?_, ?_, ?_⟩
  · exact eq_ok_of_toOption (by decide +kernel)
  · decide +kernel
  · decide +kernel
  · decide +kernel
  · decide +kernel

end DecimalCalc
