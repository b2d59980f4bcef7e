import DecimalCalc.Expression.Parser
/-!
# Derivations of expressions

The grammar of expressions as a type of derivations.  A derivation has the list
of tokens it derives (`Derivation.tokens`), the tree it stands for
(`Derivation.tree`), and the greatest number of constructs that are open at once
in it (`Derivation.opened`), where a parenthesis, a sign and the right operand of
a power are constructs.

The grammar is unambiguous.  The key fact is `Derivation.eq_of_tokens_append`: two
derivations of one phrase that begin the same list are equal, as long as neither
could go on with what follows it.
-/

namespace DecimalCalc.Grammar

/-- The chains of operands that lean to the left, the loosest first. -/
inductive Chain where
  | comparison
  | additive
  | term
deriving DecidableEq, Repr

/-- The operators that join the operands of a chain. -/
def Chain.joins : Chain → Operator → Bool
  | comparison => Operator.isComparison
  | additive => Operator.isAdditive
  | term => Operator.isMultiplicative

/-- The phrases of the language. -/
inductive Phrase where
  | chain (c : Chain)
  | power
  | unary
  | atom
deriving DecidableEq, Repr

/-- What a chain is made of: the next tighter phrase. -/
def Chain.operand : Chain → Phrase
  | comparison => .chain .additive
  | additive => .chain .term
  | term => .power

/-- What a derivation can derive: a phrase, or the operands of a chain after the
first with the operators in front of them. -/
inductive Symbol where
  | phrase (p : Phrase)
  | further (c : Chain)
deriving DecidableEq, Repr

/-- The derivations of the grammar.  Operators and parentheses carry the places of
their tokens, so that a derivation determines a list of tokens. -/
inductive Derivation : Symbol → Type where
  /-- `chain := operand further`. -/
  | chain {c : Chain} (first : Derivation (.phrase c.operand))
      (rest : Derivation (.further c)) : Derivation (.phrase (.chain c))
  /-- `further :=`, nothing. -/
  | done {c : Chain} : Derivation (.further c)
  /-- `further := op operand further`. -/
  | more {c : Chain} (op : Operator) (place : Nat) (joins : c.joins op = true)
      (operand : Derivation (.phrase c.operand)) (rest : Derivation (.further c)) :
      Derivation (.further c)
  /-- `power := unary`. -/
  | base (operand : Derivation (.phrase .unary)) : Derivation (.phrase .power)
  /-- `power := unary "**" power`. -/
  | power (base : Derivation (.phrase .unary)) (place : Nat)
      (exponent : Derivation (.phrase .power)) : Derivation (.phrase .power)
  /-- `unary := atom`. -/
  | unsigned (operand : Derivation (.phrase .atom)) : Derivation (.phrase .unary)
  /-- `unary := "+" unary`. -/
  | plus (place : Nat) (operand : Derivation (.phrase .unary)) :
      Derivation (.phrase .unary)
  /-- `unary := "-" unary`. -/
  | minus (place : Nat) (operand : Derivation (.phrase .unary)) :
      Derivation (.phrase .unary)
  /-- `atom := NUMBER`. -/
  | number (literal : String) (value : Decimal) (place : Nat) : Derivation (.phrase .atom)
  /-- `atom := "(" comparison ")"`. -/
  | group (opening : Nat) (inside : Derivation (.phrase (.chain .comparison)))
      (closing : Nat) : Derivation (.phrase .atom)

/-- A derivation of a whole expression. -/
abbrev Sentence := Derivation (.phrase (.chain .comparison))

/-- What a derivation stands for: a tree, or what further operands make of the tree
before them. -/
def Symbol.Meaning : Symbol → Type
  | phrase _ => Tree
  | further _ => Tree → Tree

namespace Derivation

/-- The list of tokens that a derivation derives. -/
def tokens : {s : Symbol} → Derivation s → List Token
  | _, chain first rest => first.tokens ++ rest.tokens
  | _, done => []
  | _, more op place _ operand rest => ⟨.operator op, place⟩ :: (operand.tokens ++ rest.tokens)
  | _, base operand => operand.tokens
  | _, power left place exponent => left.tokens ++ ⟨.operator .pow, place⟩ :: exponent.tokens
  | _, unsigned operand => operand.tokens
  | _, plus place operand => ⟨.operator .add, place⟩ :: operand.tokens
  | _, minus place operand => ⟨.operator .sub, place⟩ :: operand.tokens
  | _, number literal value place => [⟨.number literal value, place⟩]
  | _, group opening inside closing =>
    ⟨.leftParen, opening⟩ :: (inside.tokens ++ [⟨.rightParen, closing⟩])

/-- What a derivation stands for.  Chains lean to the left and powers to the right; a plus
sign is dropped, and a minus sign goes into a number in front of which it stands. -/
def meaning : {s : Symbol} → Derivation s → s.Meaning
  | _, chain first rest => rest.meaning first.meaning
  | _, done => fun left => left
  | _, more op _ _ operand rest => fun left => rest.meaning (Tree.binary op left operand.meaning)
  | _, base operand => operand.meaning
  | _, power left _ exponent => Tree.binary .pow left.meaning exponent.meaning
  | _, unsigned operand => operand.meaning
  | _, plus _ operand => operand.meaning
  | _, minus _ operand =>
    match (operand.meaning : Tree) with
    | .number d => Tree.number d.neg
    | t => Tree.negate t
  | _, number _ value _ => Tree.number value
  | _, group _ inside _ => inside.meaning

/-- The tree of a phrase. -/
def tree {p : Phrase} (d : Derivation (.phrase p)) : Tree := d.meaning

/-- The tree of a chain whose operands so far make up a tree. -/
def joined {c : Chain} (d : Derivation (.further c)) (left : Tree) : Tree := d.meaning left

/-- The greatest number of constructs that are open at once. -/
def opened : {s : Symbol} → Derivation s → Nat
  | _, chain first rest => max first.opened rest.opened
  | _, done => 0
  | _, more _ _ _ operand rest => max operand.opened rest.opened
  | _, base operand => operand.opened
  | _, power left _ exponent => max left.opened (exponent.opened + 1)
  | _, unsigned operand => operand.opened
  | _, plus _ operand => operand.opened + 1
  | _, minus _ operand => operand.opened + 1
  | _, number _ _ _ => 0
  | _, group _ inside _ => inside.opened + 1

end Derivation

section Equations

variable {c : Chain} (place : Nat)

@[simp] theorem Derivation.tree_chain (first : Derivation (.phrase c.operand))
    (rest : Derivation (.further c)) : (chain first rest).tree = rest.joined first.tree := rfl

@[simp] theorem Derivation.joined_done (left : Tree) :
    (done : Derivation (.further c)).joined left = left := rfl

@[simp] theorem Derivation.joined_more {op : Operator} {joins : c.joins op = true}
    (operand : Derivation (.phrase c.operand)) (rest : Derivation (.further c)) (left : Tree) :
    (more op place joins operand rest).joined left =
      rest.joined (.binary op left operand.tree) := rfl

@[simp] theorem Derivation.tree_base (u : Derivation (.phrase .unary)) :
    (base u).tree = u.tree := rfl

@[simp] theorem Derivation.tree_power (u : Derivation (.phrase .unary))
    (e : Derivation (.phrase .power)) :
    (power u place e).tree = .binary .pow u.tree e.tree := rfl

@[simp] theorem Derivation.tree_unsigned (a : Derivation (.phrase .atom)) :
    (unsigned a).tree = a.tree := rfl

@[simp] theorem Derivation.tree_plus (u : Derivation (.phrase .unary)) :
    (plus place u).tree = u.tree := rfl

@[simp] theorem Derivation.tree_minus (u : Derivation (.phrase .unary)) :
    (minus place u).tree = u.tree.negated := by
  unfold tree
  rw [meaning]
  generalize (u.meaning : Tree) = t
  cases t <;> rfl

@[simp] theorem Derivation.tree_number (literal : String) (value : Decimal) :
    (number literal value place).tree = .number value := rfl

@[simp] theorem Derivation.tree_group (inside : Sentence) (closing : Nat) :
    (group place inside closing).tree = inside.tree := rfl

end Equations

/-! ## Where a phrase ends -/

/-- The operators that a phrase can go on with. -/
def Phrase.continues : Phrase → Operator → Bool
  | atom, _ | unary, _ => false
  | power, op => op == .pow
  | chain .term, op => op == .pow || op.isMultiplicative
  | chain .additive, op => op == .pow || op.isMultiplicative || op.isAdditive
  | chain .comparison, op =>
    op == .pow || op.isMultiplicative || op.isAdditive || op.isComparison

/-- A list of tokens does not begin with an operator that a phrase can go on with. -/
def Phrase.EndsBefore (p : Phrase) (ts : List Token) : Prop :=
  ∀ op place rest, ts = ⟨.operator op, place⟩ :: rest → p.continues op = false

/-- A chain goes on with what its operands go on with, and with its own operators. -/
theorem Chain.continues_eq (c : Chain) (op : Operator) :
    (Phrase.chain c).continues op = (c.operand.continues op || c.joins op) := by
  cases c <;> rfl

/-- An operand of a chain stops before the operators of the chain. -/
theorem Chain.operand_stops {c : Chain} {op : Operator} (h : c.joins op = true) :
    c.operand.continues op = false := by
  cases c <;> cases op <;> first | rfl | cases h

theorem Phrase.endsBefore_nil (p : Phrase) : p.EndsBefore [] := by
  intro op place rest h
  cases h

/-- Before anything but an operator every phrase ends. -/
theorem Phrase.endsBefore_cons {p : Phrase} {t : Token} {ts : List Token}
    (h : ∀ op, t.lexeme ≠ .operator op) : p.EndsBefore (t :: ts) := by
  intro op place rest heq
  cases heq
  exact absurd rfl (h op)

/-- A signed operand cannot go on. -/
theorem Phrase.unary_endsBefore (ts : List Token) : unary.EndsBefore ts := by
  intro op place rest _
  rfl

theorem Phrase.atom_endsBefore (ts : List Token) : atom.EndsBefore ts := by
  intro op place rest _
  rfl

theorem Phrase.endsBefore_operator {p : Phrase} {op : Operator} {place : Nat}
    {ts : List Token} (h : p.continues op = false) :
    p.EndsBefore (⟨.operator op, place⟩ :: ts) := by
  intro op' place' rest heq
  cases heq
  exact h

theorem Phrase.EndsBefore.operand {c : Chain} {ts : List Token}
    (h : (Phrase.chain c).EndsBefore ts) : c.operand.EndsBefore ts := by
  intro op place rest heq
  have hop := h op place rest heq
  rw [c.continues_eq, Bool.or_eq_false_iff] at hop
  exact hop.1

theorem Phrase.EndsBefore.joins {c : Chain} {op : Operator} {place : Nat} {ts : List Token}
    (h : (Phrase.chain c).EndsBefore (⟨.operator op, place⟩ :: ts)) : c.joins op = false := by
  have hop := h op place ts rfl
  rw [c.continues_eq, Bool.or_eq_false_iff] at hop
  exact hop.2

/-- An operand of a chain ends before the further operands, whatever follows the chain. -/
theorem Derivation.operand_endsBefore {c : Chain} (d : Derivation (.further c))
    {ts : List Token} (h : (Phrase.chain c).EndsBefore ts) :
    c.operand.EndsBefore (d.tokens ++ ts) := by
  cases d with
  | done => exact h.operand
  | more op place joins operand rest =>
      exact Phrase.endsBefore_operator (Chain.operand_stops joins)

/-- An atom begins with a number or an opening parenthesis. -/
theorem Derivation.atom_head (d : Derivation (.phrase .atom)) :
    ∃ t ts, d.tokens = t :: ts ∧ ∀ op, t.lexeme ≠ .operator op := by
  cases d with
  | number literal value place => exact ⟨_, _, rfl, by simp⟩
  | group opening inside closing => exact ⟨_, _, rfl, by simp⟩

theorem Derivation.atom_append_ne (d : Derivation (.phrase .atom)) (op : Operator)
    (place : Nat) (ts ts' : List Token) :
    d.tokens ++ ts ≠ ⟨.operator op, place⟩ :: ts' := by
  obtain ⟨t, rest, htokens, hop⟩ := d.atom_head
  intro h
  rw [htokens] at h
  exact hop op (congrArg Token.lexeme (List.cons.inj h).1)

/-- No derivation of a phrase is empty. -/
theorem Derivation.tokens_ne_nil {s : Symbol} (d : Derivation s) {p : Phrase}
    (hs : s = .phrase p) : d.tokens ≠ [] := by
  induction d generalizing p with
  | chain first rest ihFirst => simp [tokens, ihFirst rfl]
  | done => cases hs
  | more => cases hs
  | base operand ih => exact ih rfl
  | power => simp [tokens]
  | unsigned operand ih => exact ih rfl
  | plus | minus | number | group => simp [tokens]

/-! ## The grammar is unambiguous -/

/-- The phrase whose end a symbol shares. -/
def Symbol.ending : Symbol → Phrase
  | phrase p => p
  | further c => .chain c

/-- **Unique decomposition.**  Two derivations of one symbol at the beginning of the same
list are equal, if neither could go on with what is left.  By induction on the first one:
a symbol fixes its production by the token that comes next. -/
theorem Derivation.eq_of_tokens_append {s : Symbol} (d d' : Derivation s)
    {ts ts' : List Token} (h : d.tokens ++ ts = d'.tokens ++ ts')
    (hend : s.ending.EndsBefore ts) (hend' : s.ending.EndsBefore ts') :
    d = d' ∧ ts = ts' := by
  induction d generalizing ts ts' with
  | chain first rest ihFirst ihRest =>
      cases d' with
      | chain first' rest' =>
          simp only [tokens, List.append_assoc] at h
          obtain ⟨rfl, hrest⟩ := ihFirst first' h (rest.operand_endsBefore hend)
            (rest'.operand_endsBefore hend')
          obtain ⟨rfl, hts⟩ := ihRest rest' hrest hend hend'
          exact ⟨rfl, hts⟩
  | done =>
      cases d' with
      | done => exact ⟨rfl, h⟩
      | more op place joins operand rest =>
          have hstop := hend op place _ h
          simp [Symbol.ending, Chain.continues_eq, joins] at hstop
  | more op place joins operand rest ihOperand ihRest =>
      cases d' with
      | done =>
          have hstop := hend' op place _ h.symm
          simp [Symbol.ending, Chain.continues_eq, joins] at hstop
      | more op' place' joins' operand' rest' =>
          simp only [tokens, List.cons_append, List.append_assoc, List.cons.injEq,
            Token.mk.injEq, Lexeme.operator.injEq] at h
          obtain ⟨⟨rfl, rfl⟩, hoperand⟩ := h
          obtain ⟨rfl, hrest⟩ := ihOperand operand' hoperand (rest.operand_endsBefore hend)
            (rest'.operand_endsBefore hend')
          obtain ⟨rfl, hts⟩ := ihRest rest' hrest hend hend'
          exact ⟨rfl, hts⟩
  | base operand ih =>
      cases d' with
      | base operand' =>
          obtain ⟨rfl, hts⟩ := ih operand' h (Phrase.unary_endsBefore _)
            (Phrase.unary_endsBefore _)
          exact ⟨rfl, hts⟩
      | power base' place' exponent' =>
          -- the sign that makes a power cannot be left over
          simp only [tokens, List.append_assoc, List.cons_append] at h
          obtain ⟨-, rfl⟩ := ih base' h (Phrase.unary_endsBefore _)
            (Phrase.unary_endsBefore _)
          have hstop := hend .pow _ _ rfl
          cases hstop
  | power base place exponent ihBase ihExponent =>
      cases d' with
      | base operand' =>
          simp only [tokens, List.append_assoc, List.cons_append] at h
          obtain ⟨-, rfl⟩ := ihBase operand' h (Phrase.unary_endsBefore _)
            (Phrase.unary_endsBefore _)
          have hstop := hend' .pow _ _ rfl
          cases hstop
      | power base' place' exponent' =>
          simp only [tokens, List.append_assoc, List.cons_append] at h
          obtain ⟨rfl, hpow⟩ := ihBase base' h (Phrase.unary_endsBefore _)
            (Phrase.unary_endsBefore _)
          simp only [List.cons.injEq, Token.mk.injEq, true_and] at hpow
          obtain ⟨rfl, hexponent⟩ := hpow
          obtain ⟨rfl, hts⟩ := ihExponent exponent' hexponent hend hend'
          exact ⟨rfl, hts⟩
  | unsigned operand ih =>
      cases d' with
      | unsigned operand' =>
          obtain ⟨rfl, hts⟩ := ih operand' h hend hend'
          exact ⟨rfl, hts⟩
      | plus place' operand' | minus place' operand' =>
          exact absurd h (operand.atom_append_ne _ _ _ _)
  | plus place operand ih =>
      cases d' with
      | unsigned operand' => exact absurd h.symm (operand'.atom_append_ne _ _ _ _)
      | plus place' operand' =>
          simp only [tokens, List.cons_append, List.cons.injEq, Token.mk.injEq, true_and] at h
          obtain ⟨rfl, hoperand⟩ := h
          obtain ⟨rfl, hts⟩ := ih operand' hoperand hend hend'
          exact ⟨rfl, hts⟩
      | minus place' operand' => simp [tokens] at h
  | minus place operand ih =>
      cases d' with
      | unsigned operand' => exact absurd h.symm (operand'.atom_append_ne _ _ _ _)
      | plus place' operand' => simp [tokens] at h
      | minus place' operand' =>
          simp only [tokens, List.cons_append, List.cons.injEq, Token.mk.injEq, true_and] at h
          obtain ⟨rfl, hoperand⟩ := h
          obtain ⟨rfl, hts⟩ := ih operand' hoperand hend hend'
          exact ⟨rfl, hts⟩
  | number literal value place =>
      cases d' with
      | number literal' value' place' =>
          simp only [tokens, List.cons_append, List.nil_append, List.cons.injEq, Token.mk.injEq,
            Lexeme.number.injEq] at h
          obtain ⟨⟨⟨rfl, rfl⟩, rfl⟩, h⟩ := h
          exact ⟨rfl, h⟩
      | group opening' inside' closing' => simp [tokens] at h
  | group opening inside closing ih =>
      cases d' with
      | number literal' value' place' => simp [tokens] at h
      | group opening' inside' closing' =>
          simp only [tokens, List.cons_append, List.append_assoc, List.nil_append,
            List.cons.injEq, Token.mk.injEq, true_and] at h
          obtain ⟨rfl, hinside⟩ := h
          obtain ⟨rfl, hclosing⟩ := ih inside' hinside (Phrase.endsBefore_cons (by simp))
            (Phrase.endsBefore_cons (by simp))
          simp only [List.cons.injEq, Token.mk.injEq, true_and] at hclosing
          obtain ⟨rfl, hts⟩ := hclosing
          exact ⟨rfl, hts⟩

/-- A list of tokens has at most one derivation of a phrase. -/
theorem Derivation.tokens_injective {p : Phrase} :
    Function.Injective (tokens : Derivation (.phrase p) → List Token) := by
  intro d d' h
  have happend : d.tokens ++ [] = d'.tokens ++ [] := by simpa using h
  exact (d.eq_of_tokens_append d' happend p.endsBefore_nil p.endsBefore_nil).1

end DecimalCalc.Grammar
