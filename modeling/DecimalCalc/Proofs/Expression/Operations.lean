import DecimalCalc.Proofs.Decimal.ArithmeticFailures
import DecimalCalc.Proofs.Expression.Recursion
/-!
# The operations of a tree

Every node of a tree is one operation on the values of the nodes right below it.  An operator
on two numbers yields a truth value if it compares and a number if it does not, unless
arithmetic fails (`Operator.apply_numbers_ends`); on a truth value it is refused, and so is a
negation.

The nodes are evaluated from the left to the right, operands before their operator
(`Tree.nodes`).  An evaluation that fails does so at the first node of this order that fails,
and the operands of that node have their values (`Tree.exists_first_failure`); an evaluation
that succeeds has succeeded at every node.
-/

namespace DecimalCalc

/-! ## Operators -/

def Datum.isTruth : Datum → Bool
  | number _ => false
  | truth _ => true

theorem Datum.exists_number {v : Datum} (h : v.isTruth = false) : ∃ d, v = .number d := by
  cases v with
  | number d => exact ⟨d, rfl⟩
  | truth b => cases h

namespace Operator

variable {ctx : Context} {precision rounding : Value}

/-- An operator on a truth value is refused, whatever the other operand is. -/
theorem outcome_apply_of_truth (op : Operator) {v w : Datum}
    (h : v.isTruth = true ∨ w.isTruth = true) :
    (op.apply ctx v w precision rounding).outcome = .error (.error (.truthOperand op.name)) := by
  cases v with
  | truth b => rfl
  | number a =>
      cases w with
      | truth b => rfl
      | number b => rcases h with h | h <;> cases h

/-- An operator on two numbers: a comparison yields a truth value, and every other operator a
number, or it fails. -/
theorem apply_numbers_ends (op : Operator) (a b : Decimal) :
    Ends (fun v => v.isTruth = op.isComparison)
      (fun f => ArithmeticFailure f ∨ ∃ name, f = .error (.unknownOperator name))
      (op.apply ctx (.number a) (.number b) precision rounding).outcome := by
  cases op with
  | add | sub | mul | eq | ne | lt | gt | le | ge => exact rfl
  | unknown name => exact .inr ⟨name, rfl⟩
  | pow =>
      rw [outcome_pow]
      have hpower : Computes (a.power ctx b precision).outcome := a.power_computes b precision
      exact ((computes_iff_ends.mp hpower).mono_error fun _ => Or.inl).bind fun r _ => rfl
  | div =>
      by_cases hb : b.isZero = true
      · have hzero : (div.apply ctx (.number a) (.number b) precision rounding).outcome =
            .ok (.number .zero) := by
          simp only [apply, operand, Traced.outcome_bind, Traced.outcome_liftM, ok_bind,
            if_pos hb, Traced.outcome_pure]
        rw [hzero]
        exact rfl
      · rw [outcome_div ctx precision rounding a hb]
        have hquotient : Computes (a.divide ctx b precision rounding) :=
          a.divide_computes b precision rounding
        exact ((computes_iff_ends.mp hquotient).mono_error fun _ => Or.inl).bind fun q _ => rfl

/-- A value comes from numbers, and is a truth value if the operator compares. -/
theorem apply_eq_ok {op : Operator} {v w r : Datum}
    (h : (op.apply ctx v w precision rounding).outcome = .ok r) :
    v.isTruth = false ∧ w.isTruth = false ∧ r.isTruth = op.isComparison := by
  by_cases htruth : v.isTruth = true ∨ w.isTruth = true
  · rw [op.outcome_apply_of_truth htruth] at h
    cases h
  · obtain ⟨hv, hw⟩ := not_or.mp htruth
    rw [Bool.not_eq_true] at hv hw
    obtain ⟨a, rfl⟩ := Datum.exists_number hv
    obtain ⟨b, rfl⟩ := Datum.exists_number hw
    exact ⟨rfl, rfl, (op.apply_numbers_ends a b).of_ok h⟩

/-- A failure comes from a truth value as an operand, or else from arithmetic or an operator
that is not known. -/
theorem apply_eq_error {op : Operator} {v w : Datum} {f : Failure}
    (h : (op.apply ctx v w precision rounding).outcome = .error f) :
    ((v.isTruth = true ∨ w.isTruth = true) ∧ f = .error (.truthOperand op.name)) ∨
      ¬ (v.isTruth = true ∨ w.isTruth = true) ∧
        (ArithmeticFailure f ∨ ∃ name, f = .error (.unknownOperator name)) := by
  by_cases htruth : v.isTruth = true ∨ w.isTruth = true
  · rw [op.outcome_apply_of_truth htruth] at h
    cases h
    exact .inl ⟨htruth, rfl⟩
  · obtain ⟨hv, hw⟩ := not_or.mp htruth
    rw [Bool.not_eq_true] at hv hw
    obtain ⟨a, rfl⟩ := Datum.exists_number hv
    obtain ⟨b, rfl⟩ := Datum.exists_number hw
    exact .inr ⟨htruth, (op.apply_numbers_ends a b).of_error h⟩

end Operator

/-! ## Nodes in the order of their evaluation -/

namespace Tree

/-- The nodes below the root, from the left to the right and operands before their
operator. -/
def beneath : Tree → List Tree
  | number _ => []
  | negate t => t.beneath ++ [t]
  | binary _ l r => (l.beneath ++ [l]) ++ (r.beneath ++ [r])

/-- All nodes, the root last. -/
def nodes (t : Tree) : List Tree := t.beneath ++ [t]

/-- The nodes right below the root. -/
def operands : Tree → List Tree
  | number _ => []
  | negate t => [t]
  | binary _ l r => [l, r]

theorem nodes_negate (t : Tree) : (negate t).nodes = t.nodes ++ [negate t] := rfl

theorem nodes_binary (op : Operator) (l r : Tree) :
    (binary op l r).nodes = (l.nodes ++ r.nodes) ++ [binary op l r] := rfl

theorem self_mem_nodes (t : Tree) : t ∈ t.nodes :=
  List.mem_append_right _ (List.mem_singleton_self t)

/-- The operands of a node stand below the root. -/
theorem mem_beneath_of_mem_operands {t u w : Tree} (hu : u ∈ t.nodes) (hw : w ∈ u.operands) :
    w ∈ t.beneath := by
  induction t with
  | number d =>
      rw [List.mem_singleton.mp hu] at hw
      cases hw
  | negate t ih =>
      rcases List.mem_append.mp hu with hbelow | hroot
      · exact List.mem_append_left _ (ih hbelow)
      · rw [List.mem_singleton.mp hroot] at hw
        rw [List.mem_singleton.mp hw]
        exact t.self_mem_nodes
  | binary op l r ihLeft ihRight =>
      rcases List.mem_append.mp hu with hbelow | hroot
      · rcases List.mem_append.mp hbelow with hl | hr
        · exact List.mem_append_left _ (List.mem_append_left _ (ihLeft hl))
        · exact List.mem_append_right _ (List.mem_append_left _ (ihRight hr))
      · rw [List.mem_singleton.mp hroot] at hw
        rcases List.mem_pair.mp hw with rfl | rfl
        · exact List.mem_append_left _ (self_mem_nodes _)
        · exact List.mem_append_right _ (self_mem_nodes _)

/-- Every node below the root is an operand of some node. -/
theorem exists_parent {t w : Tree} (hw : w ∈ t.beneath) : ∃ u ∈ t.nodes, w ∈ u.operands := by
  induction t with
  | number d => cases hw
  | negate t ih =>
      rcases List.mem_append.mp hw with hbelow | hroot
      · obtain ⟨u, hu, hop⟩ := ih hbelow
        exact ⟨u, List.mem_append_left _ hu, hop⟩
      · exact ⟨negate t, self_mem_nodes _, hroot⟩
  | binary op l r ihLeft ihRight =>
      rcases List.mem_append.mp hw with hl | hr
      · rcases List.mem_append.mp hl with hbelow | hroot
        · obtain ⟨u, hu, hop⟩ := ihLeft hbelow
          exact ⟨u, List.mem_append_left _ (List.mem_append_left _ hu), hop⟩
        · rw [List.mem_singleton.mp hroot]
          exact ⟨binary op l r, self_mem_nodes _, List.mem_cons_self⟩
      · rcases List.mem_append.mp hr with hbelow | hroot
        · obtain ⟨u, hu, hop⟩ := ihRight hbelow
          exact ⟨u, List.mem_append_left _ (List.mem_append_right _ hu), hop⟩
        · exact ⟨binary op l r, self_mem_nodes _, List.mem_cons_of_mem _ hroot⟩

/-! ## The first failure -/

section Evaluation

variable (ctx : Context) (precision rounding : Value)

/-- The evaluation of a tree has a value. -/
def Succeeds (t : Tree) : Prop := ∃ v, (t.evaluate ctx precision rounding).outcome = .ok v

variable {ctx precision rounding} {t : Tree}

theorem outcome_evaluate_number (d : Decimal) :
    ((number d).evaluate ctx precision rounding).outcome = .ok (.number d) := by
  rw [evaluate_eq_value]
  rfl

/-- Where a tree has a value, every node has. -/
theorem Succeeds.of_mem_nodes (h : t.Succeeds ctx precision rounding) :
    ∀ u ∈ t.nodes, u.Succeeds ctx precision rounding := by
  induction t with
  | number d =>
      intro u hu
      rwa [List.mem_singleton.mp hu]
  | negate t ih =>
      intro u hu
      rcases List.mem_append.mp hu with hbelow | hroot
      · obtain ⟨v, hv⟩ := h
        rw [outcome_evaluate_negate] at hv
        obtain ⟨w, hw, -⟩ := bind_eq_ok_iff.mp hv
        exact ih ⟨w, hw⟩ u hbelow
      · rwa [List.mem_singleton.mp hroot]
  | binary op l r ihLeft ihRight =>
      intro u hu
      rcases List.mem_append.mp hu with hbelow | hroot
      · obtain ⟨v, hv⟩ := h
        rw [outcome_evaluate_binary] at hv
        obtain ⟨a, ha, hv⟩ := bind_eq_ok_iff.mp hv
        obtain ⟨b, hb, -⟩ := bind_eq_ok_iff.mp hv
        rcases List.mem_append.mp hbelow with hl | hr
        · exact ihLeft ⟨a, ha⟩ u hl
        · exact ihRight ⟨b, hb⟩ u hr
      · rwa [List.mem_singleton.mp hroot]

/-- A tree fails with a failure first at some node of it: the nodes before have their values,
and so have the operands of the node. -/
structure FirstFails (ctx : Context) (precision rounding : Value) (t : Tree) (f : Failure)
    (earlier : List Tree) (u : Tree) (later : List Tree) : Prop where
  nodes_eq : t.nodes = earlier ++ u :: later
  earlier_succeed : ∀ w ∈ earlier, w.Succeeds ctx precision rounding
  operands_succeed : ∀ w ∈ u.operands, w.Succeeds ctx precision rounding
  fails : (u.evaluate ctx precision rounding).outcome = .error f

/-- **The first failure**, by induction on the tree. -/
theorem exists_first_failure {f : Failure}
    (h : (t.evaluate ctx precision rounding).outcome = .error f) :
    ∃ earlier u later, FirstFails ctx precision rounding t f earlier u later := by
  induction t with
  | number d =>
      rw [outcome_evaluate_number] at h
      cases h
  | negate t ih =>
      have hroot := h
      rw [outcome_evaluate_negate] at h
      rcases bind_eq_error_iff.mp h with hfirst | ⟨v, hv, -⟩
      · obtain ⟨earlier, u, later, hu⟩ := ih hfirst
        refine ⟨earlier, u, later ++ [negate t], ?_, hu.earlier_succeed, hu.operands_succeed,
          hu.fails⟩
        rw [nodes_negate, hu.nodes_eq, List.append_assoc, List.cons_append]
      · have ht : t.Succeeds ctx precision rounding := ⟨v, hv⟩
        refine ⟨t.nodes, negate t, [], rfl, ht.of_mem_nodes, ?_, hroot⟩
        intro w hw
        rwa [List.mem_singleton.mp hw]
  | binary op l r ihLeft ihRight =>
      have hroot := h
      rw [outcome_evaluate_binary] at h
      rcases bind_eq_error_iff.mp h with hfirst | ⟨a, ha, h⟩
      · obtain ⟨earlier, u, later, hu⟩ := ihLeft hfirst
        refine ⟨earlier, u, later ++ (r.nodes ++ [binary op l r]), ?_, hu.earlier_succeed,
          hu.operands_succeed, hu.fails⟩
        rw [nodes_binary, hu.nodes_eq]
        simp only [List.append_assoc, List.cons_append]
      have hl : l.Succeeds ctx precision rounding := ⟨a, ha⟩
      rcases bind_eq_error_iff.mp h with hsecond | ⟨b, hb, -⟩
      · obtain ⟨earlier, u, later, hu⟩ := ihRight hsecond
        refine ⟨l.nodes ++ earlier, u, later ++ [binary op l r], ?_, ?_, hu.operands_succeed,
          hu.fails⟩
        · rw [nodes_binary, hu.nodes_eq]
          simp only [List.append_assoc, List.cons_append]
        · exact List.forall_mem_append.mpr ⟨hl.of_mem_nodes, hu.earlier_succeed⟩
      · have hr : r.Succeeds ctx precision rounding := ⟨b, hb⟩
        refine ⟨l.nodes ++ r.nodes, binary op l r, [], rfl, ?_, ?_, hroot⟩
        · exact List.forall_mem_append.mpr ⟨hl.of_mem_nodes, hr.of_mem_nodes⟩
        · intro w hw
          rcases List.mem_pair.mp hw with rfl | rfl
          · exact hl
          · exact hr

/-- The first failure is one of an operation on values that are there. -/
theorem FirstFails.operation {f : Failure} {earlier later : List Tree} {u : Tree}
    (h : FirstFails ctx precision rounding t f earlier u later) :
    (∃ s v, u = negate s ∧ (s.evaluate ctx precision rounding).outcome = .ok v ∧
      Operator.negate v = .error f) ∨
    ∃ op l r a b, u = binary op l r ∧ (l.evaluate ctx precision rounding).outcome = .ok a ∧
      (r.evaluate ctx precision rounding).outcome = .ok b ∧
      (op.apply ctx a b precision rounding).outcome = .error f := by
  have hfails := h.fails
  have hoperands := h.operands_succeed
  cases u with
  | number d =>
      rw [outcome_evaluate_number] at hfails
      cases hfails
  | negate s =>
      obtain ⟨v, hv⟩ := hoperands s (List.mem_singleton_self s)
      rw [outcome_evaluate_negate, hv] at hfails
      exact .inl ⟨s, v, rfl, hv, hfails⟩
  | binary op l r =>
      obtain ⟨a, ha⟩ := hoperands l List.mem_cons_self
      obtain ⟨b, hb⟩ := hoperands r (List.mem_cons_of_mem _ (List.mem_singleton_self r))
      rw [outcome_evaluate_binary, ha, hb] at hfails
      exact .inr ⟨op, l, r, a, b, rfl, ha, hb, hfails⟩

end Evaluation

end Tree

end DecimalCalc
