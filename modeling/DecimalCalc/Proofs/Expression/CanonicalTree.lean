import DecimalCalc.Proofs.Expression.Lexing
import DecimalCalc.Proofs.Expression.Reading
/-!
# The trees that the parser builds

The parser builds canonical trees only (`Tree.canonical_of_ofSource`): their numbers are
normal forms within the limit on exponents, no sign stands over a number, and their
operators are those of the language.  The numbers come from the tokens
(`Token.normal_of_ofCharsAt`), and the rest from the way a derivation builds its tree
(`Derivation.builds`).
-/

namespace DecimalCalc

open Grammar Decimal

/-- The trees that the parser builds. -/
inductive Tree.Canonical (s : Settings) : Tree → Prop where
  | number {d : Decimal} (normal : d.IsNormal)
      (limit : d.exponent.natAbs ≤ s.maxLiteralExponent) : Canonical s (.number d)
  | negate {t : Tree} (canonical : Canonical s t) (sign : ∀ d, t ≠ .number d) :
      Canonical s (.negate t)
  | binary {op : Operator} {l r : Tree} (known : op ∈ Operator.known)
      (left : Canonical s l) (right : Canonical s r) : Canonical s (.binary op l r)

section Building

variable {s : Settings}

/-- A minus sign goes into a number, and stands over everything else. -/
theorem Tree.Canonical.negated {t : Tree} (h : t.Canonical s) : t.negated.Canonical s := by
  cases h with
  | @number d normal limit =>
      have hexponent := d.natAbs_exponent_neg
      exact .number normal.neg (by omega)
  | negate canonical sign => exact .negate (.negate canonical sign) (by simp)
  | binary known left right => exact .negate (.binary known left right) (by simp)

/-- A minus sign stands over what is no number. -/
theorem Tree.negated_of_ne_number {t : Tree} (h : ∀ d, t ≠ .number d) :
    t.negated = .negate t := by
  cases t with
  | number d => exact absurd rfl (h d)
  | negate | binary => rfl

theorem Grammar.Chain.joins_known {c : Chain} {op : Operator} (h : c.joins op = true) :
    op ∈ Operator.known := by
  cases op with
  | unknown name => cases c <;> cases h
  | _ => simp [Operator.known]

/-- A derivation builds canonical trees, a chain from a canonical tree before it. -/
def Grammar.Derivation.Builds (s : Settings) : {symbol : Symbol} → Derivation symbol → Prop
  | .phrase _, d => d.tree.Canonical s
  | .further _, d => ∀ left, left.Canonical s → (d.joined left).Canonical s

/-- **Normal tokens make canonical trees**, by induction on the derivation. -/
theorem Grammar.Derivation.builds {symbol : Symbol} (d : Derivation symbol)
    (h : ∀ t ∈ d.tokens, t.lexeme.Normal s) : d.Builds s := by
  induction d with
  | chain first rest ihFirst ihRest =>
      obtain ⟨hfirst, hrest⟩ := List.forall_mem_append.mp h
      exact ihRest hrest _ (ihFirst hfirst)
  | done =>
      intro left hleft
      exact hleft
  | more op place joins operand rest ihOperand ihRest =>
      obtain ⟨-, htokens⟩ := List.forall_mem_cons.mp h
      obtain ⟨hoperand, hrest⟩ := List.forall_mem_append.mp htokens
      intro left hleft
      exact ihRest hrest _ (.binary (Chain.joins_known joins) hleft (ihOperand hoperand))
  | base operand ih => exact ih h
  | power base place exponent ihBase ihExponent =>
      obtain ⟨hbase, htokens⟩ := List.forall_mem_append.mp h
      obtain ⟨-, hexponent⟩ := List.forall_mem_cons.mp htokens
      exact .binary (by simp [Operator.known]) (ihBase hbase) (ihExponent hexponent)
  | unsigned operand ih => exact ih h
  | plus place operand ih => exact ih (List.forall_mem_cons.mp h).2
  | minus place operand ih =>
      have hoperand := ih (List.forall_mem_cons.mp h).2
      rw [Builds, tree_minus]
      exact Tree.Canonical.negated hoperand
  | number literal a place =>
      obtain ⟨⟨hnormal, hlimit⟩, -⟩ := List.forall_mem_cons.mp h
      exact .number hnormal hlimit
  | group opening inside closing ih =>
      obtain ⟨-, htokens⟩ := List.forall_mem_cons.mp h
      exact ih (List.forall_mem_append.mp htokens).1

/-- **The parser builds canonical trees.** -/
theorem Tree.canonical_of_ofSource {source : String} {t : Tree}
    (h : ofSource s source = .ok t) : t.Canonical s := by
  obtain ⟨checked, -, hunchecked⟩ := bind_eq_ok_iff.mp h
  obtain ⟨ts, htokens, htree⟩ := bind_eq_ok_iff.mp hunchecked
  obtain ⟨d, rfl, rfl⟩ := exists_derivation_of_ofTokens htree
  exact d.builds (Token.normal_of_ofCharsAt htokens)

end Building

end DecimalCalc
