import DecimalCalc.Proofs.Expression.Operations
/-!
# Where comparisons stand

Only a comparison yields a truth value, and no operation takes one as an operand.  So a tree
has a value only if its root is the one place where a comparison stands.

The key fact is about the first node that fails (`FirstFails.isTypeMismatch_iff`): it is refused
for the type of an operand exactly if one of its operands is a comparison
(`Tree.mixes`).  A node like this never has a value, so it fails itself unless a node before it
does (`evaluate_typed`).
-/

namespace DecimalCalc

/-- A failure is an error of evaluation for the type of an operand. -/
def Failure.IsTypeMismatch (f : Failure) : Prop :=
  ∃ e : Error, f = .error e ∧ e.kind = .evaluation ∧ e.code = "TYPE_MISMATCH"

theorem Failure.isTypeMismatch_iff {f : Failure} :
    f.IsTypeMismatch ↔ ∃ name, f = .error (.truthOperand name) := by
  constructor
  · rintro ⟨e, rfl, -, hcode⟩
    cases e with
    | truthOperand name => exact ⟨name, rfl⟩
    | _ => simp [Error.code] at hcode
  · rintro ⟨name, rfl⟩
    exact ⟨.truthOperand name, rfl, rfl, rfl⟩

theorem ArithmeticFailure.not_isTypeMismatch {f : Failure} (h : ArithmeticFailure f) :
    ¬ f.IsTypeMismatch := by
  rw [Failure.isTypeMismatch_iff]
  rintro ⟨name, rfl⟩
  cases h

namespace Tree

/-- The root is a comparison. -/
def isComparison : Tree → Bool
  | binary op _ _ => op.isComparison
  | _ => false

/-- An operand of the root is a comparison. -/
def mixes (t : Tree) : Bool := t.operands.any isComparison

section

variable {ctx : Context} {precision rounding : Value} {t u : Tree}

theorem mixes_negate (s : Tree) : (negate s).mixes = s.isComparison := by
  simp [mixes, operands]

theorem mixes_binary (op : Operator) (l r : Tree) :
    (binary op l r).mixes = (l.isComparison || r.isComparison) := by
  simp [mixes, operands]

/-- A value is a truth value exactly if the root is a comparison. -/
theorem isTruth_of_evaluate {v : Datum}
    (h : (t.evaluate ctx precision rounding).outcome = .ok v) : v.isTruth = t.isComparison := by
  cases t with
  | number d =>
      rw [outcome_evaluate_number] at h
      cases h
      rfl
  | negate s =>
      rw [outcome_evaluate_negate] at h
      obtain ⟨w, -, hnegate⟩ := bind_eq_ok_iff.mp h
      cases w <;> cases hnegate
      rfl
  | binary op l r =>
      rw [outcome_evaluate_binary] at h
      obtain ⟨a, -, h⟩ := bind_eq_ok_iff.mp h
      obtain ⟨b, -, happly⟩ := bind_eq_ok_iff.mp h
      exact (Operator.apply_eq_ok happly).2.2

/-- What has a value has no comparison as an operand. -/
theorem Succeeds.mixes_eq_false (h : t.Succeeds ctx precision rounding) : t.mixes = false := by
  obtain ⟨v, hv⟩ := h
  cases t with
  | number d => rfl
  | negate s =>
      rw [outcome_evaluate_negate] at hv
      obtain ⟨w, hw, hnegate⟩ := bind_eq_ok_iff.mp hv
      rw [mixes_negate, ← isTruth_of_evaluate hw]
      cases w with
      | number d => rfl
      | truth b => cases hnegate
  | binary op l r =>
      rw [outcome_evaluate_binary] at hv
      obtain ⟨a, ha, hv⟩ := bind_eq_ok_iff.mp hv
      obtain ⟨b, hb, happly⟩ := bind_eq_ok_iff.mp hv
      obtain ⟨hleft, hright, -⟩ := Operator.apply_eq_ok happly
      rw [mixes_binary, ← isTruth_of_evaluate ha, ← isTruth_of_evaluate hb, hleft, hright]
      rfl

/-- **The first failure is a mismatch of types** exactly if an operand of its node is a
comparison. -/
theorem FirstFails.isTypeMismatch_iff {f : Failure} {earlier later : List Tree}
    (h : FirstFails ctx precision rounding t f earlier u later) :
    f.IsTypeMismatch ↔ u.mixes = true := by
  rcases h.operation with ⟨s, v, rfl, hs, hnegate⟩ | ⟨op, l, r, a, b, rfl, ha, hb, happly⟩
  · rw [mixes_negate, ← isTruth_of_evaluate hs, Failure.isTypeMismatch_iff]
    cases v with
    | number d => cases hnegate
    | truth b =>
        cases hnegate
        exact iff_of_true ⟨_, rfl⟩ rfl
  · rw [mixes_binary, ← isTruth_of_evaluate ha, ← isTruth_of_evaluate hb, Bool.or_eq_true]
    rcases Operator.apply_eq_error happly with ⟨htruth, rfl⟩ | ⟨hnumbers, harith | ⟨name, rfl⟩⟩
    · exact iff_of_true (Failure.isTypeMismatch_iff.mpr ⟨_, rfl⟩) htruth
    · exact iff_of_false harith.not_isTypeMismatch hnumbers
    · refine iff_of_false ?_ hnumbers
      rw [Failure.isTypeMismatch_iff]
      rintro ⟨_, hname⟩
      cases hname

/-- A comparison below the root is an operand of some node, and there is a first such node. -/
theorem exists_first_mixed (h : ∃ w ∈ t.beneath, w.isComparison = true) :
    ∃ before node after, t.nodes = before ++ node :: after ∧ node.mixes = true ∧
      ∀ w ∈ before, w.mixes = false := by
  obtain ⟨w, hw, hcomparison⟩ := h
  obtain ⟨u, hu, hoperand⟩ := exists_parent hw
  have hmixes : u.mixes = true := List.any_eq_true.mpr ⟨w, hoperand, hcomparison⟩
  obtain ⟨node, hnode⟩ := Option.isSome_iff_exists.mp
    (List.find?_isSome.mpr ⟨u, hu, hmixes⟩)
  obtain ⟨hfirst, before, after, hnodes, hbefore⟩ := List.find?_eq_some_iff_append.mp hnode
  refine ⟨before, node, after, hnodes, hfirst, ?_⟩
  intro x hx
  simpa using hbefore x hx

/-- The first failure is at a node that has no value, or before it. -/
theorem FirstFails.position {f : Failure} {earlier later before after : List Tree} {node : Tree}
    (h : FirstFails ctx precision rounding t f earlier u later)
    (hnodes : t.nodes = before ++ node :: after)
    (hnode : ¬ node.Succeeds ctx precision rounding) :
    FirstFails ctx precision rounding t f before node after ∨
      ∃ gap, before = earlier ++ u :: gap ∧ later = gap ++ node :: after := by
  rcases List.append_eq_append_iff.mp (hnodes.symm.trans h.nodes_eq) with
    ⟨gap, hearlier, htail⟩ | ⟨gap, hbefore, htail⟩
  · cases gap with
    | nil =>
        cases htail
        rw [List.append_nil] at hearlier
        exact .inl (hearlier ▸ h)
    | cons x gap =>
        -- the node would be among those that have their values
        cases htail
        rw [hearlier] at h
        exact absurd (h.earlier_succeed node (List.mem_append_right _ List.mem_cons_self)) hnode
  · cases gap with
    | nil =>
        cases htail
        rw [List.append_nil] at hbefore
        exact .inl (hbefore ▸ h)
    | cons x gap =>
        cases htail
        exact .inr ⟨gap, hbefore, rfl⟩

end

/-- **Comparisons belong at the root.**  Whatever the precision and the rounding mode are, a
tree that has a value has no comparison below the root, and the value is a truth value exactly
if the root is a comparison.  A mismatch of types arises only where a comparison stands below
the root.  Where one does, the tree fails: with a mismatch of types at the first node that has a
comparison as an operand, or with another failure at a node before that. -/
theorem evaluate_typed (ctx : Context) (precision rounding : Value) (t : Tree) :
    (∀ v, (t.evaluate ctx precision rounding).outcome = .ok v →
      (v.isTruth = true ↔ t.isComparison = true) ∧ ∀ w ∈ t.beneath, w.isComparison = false) ∧
    (∀ f, (t.evaluate ctx precision rounding).outcome = .error f → f.IsTypeMismatch →
      ∃ w ∈ t.beneath, w.isComparison = true) ∧
    ((∃ w ∈ t.beneath, w.isComparison = true) →
      ∃ before node after f, t.nodes = before ++ node :: after ∧ node.mixes = true ∧
        (∀ w ∈ before, w.mixes = false) ∧
        (t.evaluate ctx precision rounding).outcome = .error f ∧
        (f.IsTypeMismatch ∧ FirstFails ctx precision rounding t f before node after ∨
          ¬ f.IsTypeMismatch ∧ ∃ earlier u later, before = earlier ++ u :: later ∧
            FirstFails ctx precision rounding t f earlier u (later ++ node :: after))) := by
  refine ⟨?_, ?_, ?_⟩
  · intro v hv
    refine ⟨by rw [isTruth_of_evaluate hv], ?_⟩
    intro w hw
    have hsucceeds : t.Succeeds ctx precision rounding := ⟨v, hv⟩
    obtain ⟨u, hu, hoperand⟩ := exists_parent hw
    have hmixes := (hsucceeds.of_mem_nodes u hu).mixes_eq_false
    exact List.any_eq_false.mp hmixes w hoperand |> Bool.eq_false_iff.mpr
  · intro f hf hmismatch
    obtain ⟨earlier, u, later, hfirst⟩ := exists_first_failure hf
    obtain ⟨w, hoperand, hcomparison⟩ :=
      List.any_eq_true.mp (hfirst.isTypeMismatch_iff.mp hmismatch)
    have hu : u ∈ t.nodes := by
      rw [hfirst.nodes_eq]
      exact List.mem_append_right _ List.mem_cons_self
    exact ⟨w, mem_beneath_of_mem_operands hu hoperand, hcomparison⟩
  · intro h
    obtain ⟨before, node, after, hnodes, hmixes, hbefore⟩ := exists_first_mixed h
    have hnode : ¬ node.Succeeds ctx precision rounding := by
      intro hsucceeds
      rw [hsucceeds.mixes_eq_false] at hmixes
      cases hmixes
    have hmem : node ∈ t.nodes := by
      rw [hnodes]
      exact List.mem_append_right _ List.mem_cons_self
    cases houtcome : (t.evaluate ctx precision rounding).outcome with
    | ok v => exact absurd (Succeeds.of_mem_nodes ⟨v, houtcome⟩ node hmem) hnode
    | error f =>
        obtain ⟨earlier, u, later, hfirst⟩ := exists_first_failure houtcome
        refine ⟨before, node, after, f, hnodes, hmixes, hbefore, rfl, ?_⟩
        rcases hfirst.position hnodes hnode with hhere | ⟨gap, rfl, rfl⟩
        · exact .inl ⟨hhere.isTypeMismatch_iff.mpr hmixes, hhere⟩
        · have hunmixed := hbefore u (List.mem_append_right _ List.mem_cons_self)
          refine .inr ⟨?_, earlier, u, gap, rfl, hfirst⟩
          rw [hfirst.isTypeMismatch_iff, hunmixed]
          exact Bool.false_ne_true

/-- The theorem on an equality of two numbers, and on a sum with this equality as an
operand. -/
theorem evaluate_typed_sum_of_truth :
    let ctx := Context.initial {}
    let equality : Tree := .binary .eq (.number ⟨1, 0⟩) (.number ⟨10, -1⟩)
    let sum : Tree := .binary .add (.number ⟨2, 0⟩) equality
    (equality.evaluate ctx (.int (-4)) .none).outcome = .ok (.truth true) ∧
      ((Datum.truth true).isTruth = true ↔ equality.isComparison = true) ∧
      (sum.evaluate ctx (.int (-4)) .none).outcome = .error (.error (.truthOperand "+")) ∧
      (Failure.error (.truthOperand "+")).IsTypeMismatch ∧
      (∃ w ∈ sum.beneath, w.isComparison = true) ∧
      ∃ before node after f, sum.nodes = before ++ node :: after ∧ node.mixes = true ∧
        (∀ w ∈ before, w.mixes = false) ∧
        (sum.evaluate ctx (.int (-4)) .none).outcome = .error f ∧
        (f.IsTypeMismatch ∧ FirstFails ctx (.int (-4)) .none sum f before node after ∨
          ¬ f.IsTypeMismatch ∧ ∃ earlier u later, before = earlier ++ u :: later ∧
            FirstFails ctx (.int (-4)) .none sum f earlier u (later ++ node :: after)) := by
  intro ctx equality sum
  have htruth : (equality.evaluate ctx (.int (-4)) .none).outcome = .ok (.truth true) := by
    rw [evaluate_eq_value]
    rfl
  have hrefused : (sum.evaluate ctx (.int (-4)) .none).outcome =
      .error (.error (.truthOperand "+")) := by
    rw [evaluate_eq_value]
    rfl
  have hmismatch : (Failure.error (.truthOperand "+")).IsTypeMismatch :=
    Failure.isTypeMismatch_iff.mpr ⟨"+", rfl⟩
  obtain ⟨hvalues, -, -⟩ := evaluate_typed ctx (.int (-4)) .none equality
  obtain ⟨-, hmismatches, hmixed⟩ := evaluate_typed ctx (.int (-4)) .none sum
  have hcomparison := hmismatches _ hrefused hmismatch
  exact ⟨htruth, (hvalues _ htruth).1, hrefused, hmismatch, hcomparison, hmixed hcomparison⟩

end Tree

end DecimalCalc
