import DecimalCalc.Expression.Evaluation
import DecimalCalc.Proofs.Outcome
/-!
# Evaluation by recursion

The value of a tree is computed with a list of tasks and a stack of values.  It is
the same to compute it by recursion on the tree, the left operand before the right
one and the operator last.

The key fact is `Tree.perform_visit`: to visit a tree is to compute its value by
recursion and to go on with it on the stack, whatever is left to do and whatever
waits there.  So an evaluation ends as those of the operands and then the operator do, and
a source is evaluated as its tree (`outcome_compute`).
-/

namespace DecimalCalc

namespace Traced

variable {α β γ : Type}

theorem pure_bind (a : α) (f : α → Traced β) : (pure a >>= f) = f a := by
  change andThen (ofExcept (.ok a)) f = f a
  simp [andThen, ofExcept]

theorem bind_pure (x : Traced α) : (x >>= pure) = x := by
  change andThen x (fun a => ofExcept (.ok a)) = x
  rcases x with ⟨events, e | a⟩
  · rfl
  · simp [andThen, ofExcept]

theorem bind_assoc (x : Traced α) (f : α → Traced β) (g : β → Traced γ) :
    (x >>= f >>= g) = (x >>= fun a => f a >>= g) := by
  change andThen (andThen x f) g = andThen x fun a => andThen (f a) g
  unfold andThen
  rcases x with ⟨events, e | a⟩
  · rfl
  · dsimp only
    cases (f a).outcome with
    | error e => rfl
    | ok b => simp [List.append_assoc]

end Traced

namespace Tree

variable (ctx : Context) (precision rounding : Value)

/-- The value of a tree by recursion. -/
def value : Tree → Traced Datum
  | number d => pure (.number d)
  | negate t => do
    let v ← t.value
    Operator.negate v
  | binary op l r => do
    let a ← l.value
    let b ← r.value
    op.apply ctx a b precision rounding

/-- **A visit is a recursive evaluation.**  By induction on the tree, for every list of
tasks and every stack. -/
theorem perform_visit (t : Tree) (tasks : List Task) (values : List Datum) :
    perform ctx precision rounding (.visit t :: tasks) values =
      t.value ctx precision rounding >>= fun v =>
        perform ctx precision rounding tasks (v :: values) := by
  induction t generalizing tasks values with
  | number d =>
      rw [perform, value, Traced.pure_bind]
  | negate t ih =>
      rw [perform, ih, value, Traced.bind_assoc]
      congr 1
      funext v
      rw [perform]
  | binary op l r ihLeft ihRight =>
      rw [perform, ihLeft, value, Traced.bind_assoc]
      congr 1
      funext a
      rw [ihRight, Traced.bind_assoc]
      congr 1
      funext b
      rw [perform]

/-- The tasks of a tree leave one value, that of the recursion. -/
theorem perform_tree (t : Tree) :
    perform ctx precision rounding [.visit t] [] =
      t.value ctx precision rounding >>= fun v => pure [v] := by
  rw [perform_visit]
  congr 1
  funext v
  rw [perform]

/-- Evaluation with tasks and evaluation by recursion are the same, in outcome and in what
is reported. -/
theorem evaluate_eq_value (t : Tree) :
    t.evaluate ctx precision rounding = t.value ctx precision rounding := by
  rw [evaluate, perform_tree, Traced.bind_assoc]
  simp only [Traced.pure_bind]
  exact Traced.bind_pure _

theorem outcome_evaluate_negate (t : Tree) :
    ((negate t).evaluate ctx precision rounding).outcome =
      (t.evaluate ctx precision rounding).outcome >>= Operator.negate := by
  simp only [evaluate_eq_value, value, Traced.outcome_bind, Traced.outcome_liftM]

theorem outcome_evaluate_binary (op : Operator) (l r : Tree) :
    ((binary op l r).evaluate ctx precision rounding).outcome =
      (l.evaluate ctx precision rounding).outcome >>= fun a =>
        (r.evaluate ctx precision rounding).outcome >>= fun b =>
          (op.apply ctx a b precision rounding).outcome := by
  simp only [evaluate_eq_value, value, Traced.outcome_bind]

end Tree

/-! ## Operators on numbers -/

namespace Operator

variable (ctx : Context) (precision rounding : Value)

theorem outcome_pow (a b : Decimal) :
    (pow.apply ctx (.number a) (.number b) precision rounding).outcome =
      (a.power ctx b precision).outcome >>= fun r => .ok (.number r) := by
  simp only [apply, operand, Traced.outcome_bind, Traced.outcome_liftM, Traced.outcome_pure,
    ok_bind]

/-- A quotient by a number other than zero. -/
theorem outcome_div (a : Decimal) {b : Decimal} (hb : ¬ b.isZero = true) :
    (div.apply ctx (.number a) (.number b) precision rounding).outcome =
      a.divide ctx b precision rounding >>= fun q => .ok (.number q) := by
  simp only [apply, operand, Traced.outcome_bind, Traced.outcome_liftM, Traced.outcome_pure,
    ok_bind, if_neg hb]

end Operator

/-! ## Sources -/

/-- A source is evaluated as its tree, once the precision is written into the report of it;
a source that has no tree is refused for that. -/
theorem outcome_compute {ctx : Context} {precision rounding : Value} {p : Int}
    {mode : Rounding} (hp : ctx.resolvePrecision precision = .ok p)
    (hmode : ctx.resolveRounding rounding = .ok mode) (source : String) :
    (compute ctx (.text source) precision rounding).outcome =
      match Tree.ofSource ctx.settings source with
      | .ok t =>
        Numeral.shownInt p >>= fun _ => (t.evaluate ctx (.int p) (.text mode.name)).outcome
      | .error e => .error (.error e) := by
  have hvalue : Tree.ofValue ctx.settings (.text source) =
      Tree.ofSource ctx.settings source >>= fun tree => .ok (source, tree) := rfl
  unfold compute
  rw [hp, hmode, hvalue]
  cases Tree.ofSource ctx.settings source with
  | ok t => simp only [Traced.outcome_bind, Traced.outcome_liftM, Traced.outcome_report, ok_bind]
  | error e => rfl

end DecimalCalc
