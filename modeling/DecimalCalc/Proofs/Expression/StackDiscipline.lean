import DecimalCalc.Proofs.Expression.Operations
/-!
# The stack of an evaluation

An evaluation takes its tasks one at a time.  A task takes its operands off the stack, and
leaves a value there or leads to other tasks (`Task.step`); the evaluation of a tree passes
through the states that such steps lead to (`Tree.Passes`).

The key notion is `Tree.Supplied`: with so many values on the stack, every task finds its
operands, and one value is left over when all are done.  It holds at the start, and every step
keeps it (`supplied_step`).  So no task ever comes to a stack that is too short, and in the end
there is the one value that the recursion has (`evaluate_by_recursion`).
-/

namespace DecimalCalc.Tree

/-- The number of values that a task takes off the stack. -/
def Task.demand : Task → Nat
  | visit _ => 0
  | negate => 1
  | join _ => 2

section Steps

variable (ctx : Context) (precision rounding : Value)

/-- What one task leads to: other tasks, and the values that wait after it. -/
def Task.step : Task → List Datum → Traced (List Task × List Datum)
  | visit (number d), values => pure ([], .number d :: values)
  | visit (.negate t), values => pure ([visit t, negate], values)
  | visit (binary op l r), values => pure ([visit l, visit r, join op], values)
  | negate, v :: values => do
    let w ← Operator.negate v
    return ([], w :: values)
  | join op, right :: left :: values => do
    let v ← op.apply ctx left right precision rounding
    return ([], v :: values)
  | negate, [] | join _, [] | join _, [_] => Traced.fail (.fault .noOperand)

/-- Tasks are done one after the other. -/
theorem perform_cons (task : Task) (tasks : List Task) (values : List Datum) :
    perform ctx precision rounding (task :: tasks) values =
      task.step ctx precision rounding values >>= fun next =>
        perform ctx precision rounding (next.1 ++ tasks) next.2 := by
  cases task with
  | visit t => cases t <;> rw [perform, Task.step, Traced.pure_bind] <;> rfl
  | negate =>
      cases values with
      | nil =>
          rw [perform]
          rfl
      | cons v values =>
          rw [perform, Task.step, Traced.bind_assoc]
          rfl
  | join op =>
      rcases values with _ | ⟨right, _ | ⟨left, values⟩⟩
      · rw [perform]
        rfl
      · rw [perform]
        rfl
      · rw [perform, Task.step, Traced.bind_assoc]
        rfl

/-- The states that the evaluation of a tree passes through: the tasks that are left, and the
values that wait. -/
inductive Passes (t : Tree) : List Task → List Datum → Prop where
  | start : Passes t [.visit t] []
  | step {task : Task} {tasks : List Task} {values : List Datum} {next : List Task × List Datum}
      (h : Passes t (task :: tasks) values)
      (hstep : (task.step ctx precision rounding values).outcome = .ok next) :
      Passes t (next.1 ++ tasks) next.2

end Steps

/-- With so many values on the stack, all tasks find their operands, and one value is left
when they are done. -/
def Supplied : List Task → Nat → Prop
  | [], count => count = 1
  | task :: tasks, count => task.demand ≤ count ∧ Supplied tasks (count - task.demand + 1)

variable {ctx : Context} {precision rounding : Value}

/-- One step keeps the stack supplied. -/
theorem supplied_step {task : Task} {tasks : List Task} {values : List Datum}
    {next : List Task × List Datum} (h : Supplied (task :: tasks) values.length)
    (hstep : (task.step ctx precision rounding values).outcome = .ok next) :
    Supplied (next.1 ++ tasks) next.2.length := by
  obtain ⟨-, hrest⟩ := h
  cases task with
  | visit t =>
      -- a visit leads to tasks that together leave one value, as the visit does
      cases t <;> cases hstep
      · simpa [Task.demand] using hrest
      · simpa [Supplied, Task.demand] using hrest
      · simpa [Supplied, Task.demand] using hrest
  | negate =>
      cases values with
      | nil => cases hstep
      | cons v values =>
          obtain ⟨w, -, hnext⟩ := bind_eq_ok_iff.mp ((Traced.outcome_bind _ _).symm.trans hstep)
          cases hnext
          simpa [Task.demand] using hrest
  | join op =>
      rcases values with _ | ⟨right, _ | ⟨left, values⟩⟩
      · cases hstep
      · cases hstep
      · obtain ⟨v, -, hnext⟩ := bind_eq_ok_iff.mp ((Traced.outcome_bind _ _).symm.trans hstep)
        cases hnext
        simpa [Task.demand] using hrest

/-- **The stack is supplied throughout**, by induction on the steps. -/
theorem Passes.supplied {t : Tree} {tasks : List Task} {values : List Datum}
    (h : Passes ctx precision rounding t tasks values) : Supplied tasks values.length := by
  induction h with
  | start => exact ⟨Nat.zero_le 0, rfl⟩
  | step _ hstep ih => exact supplied_step ih hstep

/-- Every state that is passed through leads to the same outcome as the start. -/
theorem Passes.outcome_perform {t : Tree} {tasks : List Task} {values : List Datum}
    (h : Passes ctx precision rounding t tasks values) :
    (perform ctx precision rounding tasks values).outcome =
      (t.value ctx precision rounding).outcome >>= fun v => .ok [v] := by
  induction h with
  | start =>
      rw [perform_tree, Traced.outcome_bind]
      rfl
  | step _ hstep ih =>
      rw [perform_cons, Traced.outcome_bind, hstep] at ih
      exact ih

/-- No operation asks for an operand that is not there. -/
theorem evaluate_ne_noOperand (t : Tree) :
    (t.evaluate ctx precision rounding).outcome ≠ .error (.fault .noOperand) := by
  intro h
  obtain ⟨earlier, u, later, hfirst⟩ := exists_first_failure h
  rcases hfirst.operation with ⟨s, v, -, -, hnegate⟩ | ⟨op, l, r, a, b, -, -, -, happly⟩
  · cases v <;> cases hnegate
  · rcases Operator.apply_eq_error happly with ⟨-, hrefused⟩ | ⟨-, harith | ⟨name, hunknown⟩⟩
    · cases hrefused
    · cases harith
    · cases hunknown

/-- **Evaluation with a stack is evaluation by recursion.**  The two are the same for every
tree, in outcome and in what is reported.  Where they fail, it is with the first failure from
the left to the right, operands before their operator.  In every state that the evaluation
passes through, the next task finds its operands on the stack, and when no task is left, the
stack holds exactly the value of the recursion. -/
theorem evaluate_by_recursion (ctx : Context) (precision rounding : Value) (t : Tree) :
    t.evaluate ctx precision rounding = t.value ctx precision rounding ∧
    (∀ f, (t.value ctx precision rounding).outcome = .error f →
      f ≠ .fault .noOperand ∧
        ∃ earlier u later, FirstFails ctx precision rounding t f earlier u later) ∧
    ∀ tasks values, Passes ctx precision rounding t tasks values →
      (perform ctx precision rounding tasks values).outcome =
        ((t.value ctx precision rounding).outcome >>= fun v => .ok [v]) ∧
      (∀ task rest, tasks = task :: rest → task.demand ≤ values.length) ∧
      (tasks = [] → ∃ v, values = [v] ∧ (t.value ctx precision rounding).outcome = .ok v) := by
  refine ⟨evaluate_eq_value ctx precision rounding t, ?_, ?_⟩
  · intro f hf
    rw [← evaluate_eq_value] at hf
    refine ⟨?_, exists_first_failure hf⟩
    rintro rfl
    exact t.evaluate_ne_noOperand hf
  · intro tasks values h
    have hsupplied := h.supplied
    have houtcome := h.outcome_perform
    refine ⟨houtcome, ?_, ?_⟩
    · rintro task rest rfl
      exact hsupplied.1
    · rintro rfl
      obtain ⟨v, rfl⟩ := List.length_eq_one_iff.mp hsupplied
      rw [perform] at houtcome
      obtain ⟨v', hv', hsingle⟩ := bind_eq_ok_iff.mp houtcome.symm
      cases hsingle
      exact ⟨v, rfl, hv'⟩

/-- The theorem on a sum, where both operands wait and where it is done, and on a tree with two
operations that would fail: the left one does. -/
theorem evaluate_by_recursion_sum :
    let ctx := Context.initial {}
    let one : Tree := .number ⟨1, 0⟩
    let sum : Tree := .binary .add (.negate one) (.number ⟨2, 0⟩)
    let refused : Tree :=
      .binary .mul (.negate (.binary .eq one one)) (.binary (.unknown "?") one one)
    Passes ctx (.int (-4)) .none sum [.join .add] [.number ⟨2, 0⟩, .number ⟨-1, 0⟩] ∧
      (Task.join .add).demand ≤ 2 ∧
      Passes ctx (.int (-4)) .none sum [] [.number ⟨1, 0⟩] ∧
      (∃ v, [.number ⟨1, 0⟩] = [v] ∧ (sum.value ctx (.int (-4)) .none).outcome = .ok v) ∧
      (refused.value ctx (.int (-4)) .none).outcome = .error (.error (.truthOperand "-")) ∧
      ∃ earlier u later,
        FirstFails ctx (.int (-4)) .none refused (.error (.truthOperand "-")) earlier u later := by
  intro ctx one sum refused
  have hwaiting : Passes ctx (.int (-4)) .none sum [.join .add]
      [.number ⟨2, 0⟩, .number ⟨-1, 0⟩] := by
    have hstart : Passes ctx (.int (-4)) .none sum [.visit sum] [] := .start
    have hleft := ((hstart.step rfl).step rfl).step rfl
    exact (hleft.step rfl).step rfl
  have hdone : Passes ctx (.int (-4)) .none sum [] [.number ⟨1, 0⟩] := hwaiting.step rfl
  have hrefused : (refused.value ctx (.int (-4)) .none).outcome =
      .error (.error (.truthOperand "-")) := rfl
  obtain ⟨-, -, hstates⟩ := evaluate_by_recursion ctx (.int (-4)) .none sum
  obtain ⟨-, hfailures, -⟩ := evaluate_by_recursion ctx (.int (-4)) .none refused
  exact ⟨hwaiting, (hstates _ _ hwaiting).2.1 _ _ rfl, hdone, (hstates _ _ hdone).2.2 rfl,
    hrefused, (hfailures _ hrefused).2⟩

end DecimalCalc.Tree
