import DecimalCalc.Proofs.Expression.BracketPartners
import DecimalCalc.Proofs.Expression.CanonicalTree
/-!
# Reading a rendered tree

A tree that was read from a source and is written with parentheses around every operation
is read as itself, unless its text is too long or opens too many constructs
(`Tree.ofSource_parenthesized`).

The trees that are read are canonical, and a canonical tree is written as an operand: its
text gives the tokens of a derivation of it (`Canonical.lexes`), whatever closes the
operand, and in that derivation as many constructs are open at once as `Tree.nesting`
says.
-/

namespace DecimalCalc

open Grammar Decimal

/-- The greatest number of constructs that are open at once in the text of a tree: the
sign of a number or an operand, the parentheses around an operation, and the right operand
of a power. -/
def Tree.nesting : Tree → Nat
  | .number d => if d.isNegative then 1 else 0
  | .negate t => t.nesting + 2
  | .binary op l r => max l.nesting (r.nesting + if op = .pow then 1 else 0) + 1

/-! ## Derivations of written operations -/

/-- An operator of the language makes powers, or joins the operands of a chain. -/
theorem Grammar.Chain.pow_or_joins {op : Operator} (h : op ∈ Operator.known) :
    op = .pow ∨ ∃ c : Chain, c.joins op = true := by
  cases op with
  | pow => exact .inl rfl
  | mul | div => exact .inr ⟨.term, rfl⟩
  | add | sub => exact .inr ⟨.additive, rfl⟩
  | eq | ne | lt | gt | le | ge => exact .inr ⟨.comparison, rfl⟩
  | unknown name => simp [Operator.known] at h

namespace Grammar.Phrase

/-- A phrase derives some tokens, stands for a tree there, and opens so many constructs. -/
def Derives (p : Phrase) (ts : List Token) (t : Tree) (opened : Nat) : Prop :=
  ∃ d : Derivation (.phrase p), d.tokens = ts ∧ d.tree = t ∧ d.opened = opened

section

variable {c : Chain} {ts ts' : List Token} {t t' : Tree} {n n' : Nat} (place : Nat)

theorem Derives.alone (h : c.operand.Derives ts t n) : (chain c).Derives ts t n := by
  obtain ⟨d, rfl, rfl, rfl⟩ := h
  exact ⟨.chain d .done, List.append_nil _, rfl, Nat.max_zero _⟩

theorem Derives.pair {op : Operator} (joins : c.joins op = true)
    (h : c.operand.Derives ts t n) (h' : c.operand.Derives ts' t' n') :
    (chain c).Derives (ts ++ ⟨.operator op, place⟩ :: ts') (.binary op t t') (max n n') := by
  obtain ⟨d, rfl, rfl, rfl⟩ := h
  obtain ⟨d', rfl, rfl, rfl⟩ := h'
  refine ⟨.chain d (.more op place joins d' .done), ?_, rfl, ?_⟩
  · simp [Derivation.tokens]
  · simp [Derivation.opened]

theorem Derives.base (h : unary.Derives ts t n) : power.Derives ts t n := by
  obtain ⟨d, rfl, rfl, rfl⟩ := h
  exact ⟨.base d, rfl, rfl, rfl⟩

theorem Derives.pow (h : unary.Derives ts t n) (h' : power.Derives ts' t' n') :
    power.Derives (ts ++ ⟨.operator .pow, place⟩ :: ts') (.binary .pow t t')
      (max n (n' + 1)) := by
  obtain ⟨d, rfl, rfl, rfl⟩ := h
  obtain ⟨d', rfl, rfl, rfl⟩ := h'
  exact ⟨.power d place d', rfl, rfl, rfl⟩

theorem Derives.minus (h : unary.Derives ts t n) :
    unary.Derives (⟨.operator .sub, place⟩ :: ts) t.negated (n + 1) := by
  obtain ⟨d, rfl, rfl, rfl⟩ := h
  exact ⟨.minus place d, rfl, Derivation.tree_minus place d, rfl⟩

theorem derives_number (literal : String) (a : Decimal) :
    unary.Derives [⟨.number literal a, place⟩] (.number a) 0 :=
  ⟨.unsigned (.number literal a place), rfl, rfl, rfl⟩

/-- An expression in parentheses is an operand. -/
theorem Derives.group (h : (chain .comparison).Derives ts t n) (closing : Nat) :
    unary.Derives ([⟨.leftParen, place⟩] ++ (ts ++ [⟨.rightParen, closing⟩])) t (n + 1) := by
  obtain ⟨d, rfl, rfl, rfl⟩ := h
  exact ⟨.unsigned (.group place d closing), rfl, rfl, rfl⟩

/-- An operand is a whole expression. -/
theorem Derives.sentence (h : unary.Derives ts t n) : (chain .comparison).Derives ts t n := by
  have hterm : (chain .term).Derives ts t n := Derives.alone (c := .term) h.base
  have hadditive : (chain .additive).Derives ts t n := Derives.alone (c := .additive) hterm
  exact Derives.alone (c := .comparison) hadditive

/-- Two operands and an operator of the language are a whole expression. -/
theorem Derives.binary {op : Operator} (hop : op ∈ Operator.known)
    (h : unary.Derives ts t n) (h' : unary.Derives ts' t' n') :
    (chain .comparison).Derives (ts ++ ⟨.operator op, place⟩ :: ts') (.binary op t t')
      (max n (n' + if op = .pow then 1 else 0)) := by
  rcases Chain.pow_or_joins hop with rfl | ⟨c, joins⟩
  · have hterm := Derives.alone (c := .term) (h.pow place h'.base)
    exact Derives.alone (c := .comparison) (Derives.alone (c := .additive) hterm)
  · have hne : op ≠ .pow := by
      rintro rfl
      cases c <;> cases joins
    rw [if_neg hne]
    cases c with
    | term =>
        have hterm := Derives.pair (c := .term) place joins h.base h'.base
        exact Derives.alone (c := .comparison) (Derives.alone (c := .additive) hterm)
    | additive =>
        have hadditive := Derives.pair (c := .additive) place joins
          (Derives.alone (c := .term) h.base) (Derives.alone (c := .term) h'.base)
        exact Derives.alone (c := .comparison) hadditive
    | comparison =>
        have hterm := Derives.alone (c := .term) h.base
        have hterm' := Derives.alone (c := .term) h'.base
        exact Derives.pair (c := .comparison) place joins
          (Derives.alone (c := .additive) hterm) (Derives.alone (c := .additive) hterm')

end

end Grammar.Phrase

/-! ## Texts -/

section Texts

variable {s : Settings}

theorem Tree.toList_negate (t : Tree) :
    (negate t).parenthesized.toList =
      ['('] ++ ((['-'] ++ t.parenthesized.toList) ++ [')']) := by
  simp [parenthesized, String.toList_append]

theorem Tree.toList_binary (op : Operator) (l r : Tree) :
    (binary op l r).parenthesized.toList =
      ['('] ++ ((l.parenthesized.toList ++ ([' '] ++ (op.name.toList ++
        ([' '] ++ r.parenthesized.toList)))) ++ [')']) := by
  simp [parenthesized, String.toList_append]

/-- The text of a tree does not begin with a blank. -/
theorem Tree.exists_head (t : Tree) :
    ∃ c cs, t.parenthesized.toList = c :: cs ∧ Text.isBlank c = false := by
  cases t with
  | number d =>
      obtain ⟨whole, fraction, hspells, htext⟩ := d.exists_spells
      have hne := hspells.whole_ne_nil
      have hchars := hspells.chars
      rw [parenthesized, htext, signed]
      split
      · exact ⟨_, _, rfl, by decide⟩
      · cases whole with
        | nil => exact absurd rfl hne
        | cons c cs =>
            refine ⟨c, _, rfl, ?_⟩
            exact (hchars c List.mem_cons_self).forall_of (P := fun c => Text.isBlank c = false)
              (by decide)
  | negate t =>
      rw [toList_negate]
      exact ⟨_, _, rfl, by decide⟩
  | binary op l r =>
      rw [toList_binary]
      exact ⟨_, _, rfl, by decide⟩

theorem Tree.takeWhile_isBlank (t : Tree) (rest : List Char) :
    (t.parenthesized.toList ++ rest).takeWhile Text.isBlank = [] := by
  obtain ⟨c, cs, htext, hblank⟩ := t.exists_head
  rw [htext, List.cons_append, List.takeWhile_cons_of_neg (by simp [hblank])]

theorem Operator.takeWhile_isBlank {op : Operator} (hop : op ∈ known) (rest : List Char) :
    (op.name.toList ++ rest).takeWhile Text.isBlank = [] := by
  cases op with
  | unknown name => simp [known] at hop
  | _ => exact List.takeWhile_cons_of_neg (by decide)

/-- Two operands with an operator between blanks. -/
theorem Token.Lexes.binary {position : Nat} {left right rest : List Char} {ts ts' : List Token}
    {op : Operator} (hop : op ∈ Operator.known)
    (hhead : (right ++ rest).takeWhile Text.isBlank = [])
    (hleft : Lexes s position left ts
      (([' '] ++ (op.name.toList ++ ([' '] ++ right))) ++ rest))
    (hright : Lexes s (position + left.length + 1 + op.name.toList.length + 1) right ts' rest) :
    Lexes s position (left ++ ([' '] ++ (op.name.toList ++ ([' '] ++ right))))
      (ts ++ ⟨.operator op, position + left.length + 1⟩ :: ts') rest := by
  have hsecond : Lexes s (position + left.length + 1 + op.name.toList.length)
      ([' '] ++ right) ts' rest :=
    (lexes_blank hhead).append hright
  have hoperator : Lexes s (position + left.length + 1)
      (op.name.toList ++ ([' '] ++ right))
      (⟨.operator op, position + left.length + 1⟩ :: ts') rest :=
    (lexes_operator hop (.blank _)).append hsecond
  have hblank : ((op.name.toList ++ ([' '] ++ right)) ++ rest).takeWhile Text.isBlank = [] := by
    rw [List.append_assoc]
    exact Operator.takeWhile_isBlank hop _
  have hfurther : Lexes s (position + left.length)
      ([' '] ++ (op.name.toList ++ ([' '] ++ right)))
      (⟨.operator op, position + left.length + 1⟩ :: ts') rest :=
    (lexes_blank hblank).append hoperator
  exact hleft.append hfurther

/-- A text in parentheses. -/
theorem Token.Lexes.enclosed {position : Nat} {inside rest : List Char} {ts : List Token}
    (h : Lexes s (position + 1) inside ts ([')'] ++ rest)) :
    Lexes s position (['('] ++ (inside ++ [')']))
      ([⟨.leftParen, position⟩] ++ (ts ++ [⟨.rightParen, position + 1 + inside.length⟩])) rest :=
  lexes_leftParen.append (h.append lexes_rightParen)

/-- **A canonical tree is written as an operand**, by induction on the tree.  Its text
gives tokens that derive it, and in the derivation as many constructs are open at once as
its nesting says. -/
theorem Tree.Canonical.lexes {t : Tree} (h : t.Canonical s) (position : Nat)
    {rest : List Char} (hrest : Closes rest) :
    ∃ ts, Token.Lexes s position t.parenthesized.toList ts rest ∧
      Phrase.unary.Derives ts t t.nesting := by
  induction h generalizing position rest with
  | @number d normal limit =>
      obtain ⟨whole, fraction, hspells, htext⟩ := d.exists_spells
      rw [normal.normalize_eq] at hspells htext
      rw [parenthesized, htext, signed, nesting]
      by_cases hneg : d.isNegative
      -- a negative number is read as a sign and its absolute value, and the sign goes back in
      · rw [if_pos hneg, if_pos hneg]
        have hdigits : Token.Lexes s (position + 1) (whole ++ pointed fraction) _ rest :=
          Token.lexes_number hspells normal limit hrest
        have hnumber := (Phrase.derives_number (position + 1)
          (String.ofList (whole ++ pointed fraction)) d.abs).minus position
        rw [Tree.negated, normal.neg_abs hneg] at hnumber
        exact ⟨_, Token.lexes_minus.append hdigits, hnumber⟩
      · rw [if_neg hneg, if_neg hneg]
        have hdigits : Token.Lexes s position (whole ++ pointed fraction) _ rest :=
          Token.lexes_number hspells normal limit hrest
        have habs : d.abs = d := if_neg hneg
        rw [habs] at hdigits
        exact ⟨_, hdigits, Phrase.derives_number position _ d⟩
  | @negate t canonical sign ih =>
      obtain ⟨ts, hlexes, hderives⟩ := ih (position + 1 + 1) (.paren rest)
      have hsigned := (hderives.minus (position + 1)).sentence
      rw [negated_of_ne_number sign] at hsigned
      rw [toList_negate]
      exact ⟨_, (Token.lexes_minus.append hlexes).enclosed, hsigned.group position _⟩
  | @binary op l r known left right ihLeft ihRight =>
      obtain ⟨ts, hleft, hderives⟩ := ihLeft (position + 1) (.blank _)
      obtain ⟨ts', hright, hderives'⟩ := ihRight
        (position + 1 + l.parenthesized.toList.length + 1 + op.name.toList.length + 1)
        (.paren rest)
      rw [toList_binary]
      exact ⟨_, (hleft.binary known (r.takeWhile_isBlank _) hright).enclosed,
        (hderives.binary _ known hderives').group position _⟩

theorem Operator.balances_name {op : Operator} (hop : op ∈ known) :
    Brackets.Balances op.name.toList := by
  refine Brackets.balances_of_forall ?_
  cases op with
  | unknown name => simp [known] at hop
  | _ => simp [name]

/-- The text of a canonical tree is balanced. -/
theorem Tree.Canonical.balances {t : Tree} (h : t.Canonical s) :
    Brackets.Balances t.parenthesized.toList := by
  induction h with
  | @number d normal limit =>
      obtain ⟨whole, fraction, hspells, htext⟩ := d.exists_spells
      have hdigits : Brackets.Balances (whole ++ pointed fraction) :=
        Brackets.balances_of_forall
          (hspells.forall_of (P := fun c => c ≠ '(' ∧ c ≠ ')') (by decide) (by decide))
      rw [parenthesized, htext, signed]
      split
      · exact (Brackets.balances_singleton (by decide) (by decide)).append hdigits
      · exact hdigits
  | @negate t canonical sign ih =>
      rw [toList_negate]
      exact ((Brackets.balances_singleton (by decide) (by decide)).append ih).enclosed
  | @binary op l r known left right ihLeft ihRight =>
      have hblank : Brackets.Balances [' '] :=
        Brackets.balances_singleton (by decide) (by decide)
      rw [toList_binary]
      exact (ihLeft.append (hblank.append ((Operator.balances_name known).append
        (hblank.append ihRight)))).enclosed

/-! ## Reading what was written -/

/-- The text of a canonical tree passes the checks, if it is not too long. -/
theorem Tree.Canonical.checkSource_eq {t : Tree} (h : t.Canonical s) :
    checkSource s t.parenthesized =
      if s.maxInputLength < t.parenthesized.length then
        .error (.sourceTooLong s.maxInputLength)
      else .ok t.parenthesized := by
  have hblank : t.parenthesized.toList.all Text.isBlank = false := by
    obtain ⟨c, cs, htext, hc⟩ := t.exists_head
    rw [htext, List.all_cons, hc, Bool.false_and]
  unfold checkSource
  rw [hblank, Brackets.unpaired?_eq_none h.balances]
  rfl

/-- A canonical tree is read as itself from its text, within the limits on its length and
on the constructs that are open at once. -/
theorem Tree.Canonical.ofSource_eq {t : Tree} (h : t.Canonical s) :
    ofSource s t.parenthesized =
      if s.maxInputLength < t.parenthesized.length then
        .error (.sourceTooLong s.maxInputLength)
      else if t.nesting ≤ s.maxDepth.toNat then .ok t
      else .error (.tooDeep s.maxDepth) := by
  obtain ⟨ts, hlexes, hderives⟩ := h.lexes 0 .nothing
  obtain ⟨d, htokens, htree, hopened⟩ := hderives.sentence
  have hcut : Token.ofSource s t.parenthesized = .ok d.tokens := by
    unfold Token.Lexes at hlexes
    rw [List.append_nil, Token.ofCharsAt_nil] at hlexes
    rw [Token.ofSource, hlexes, htokens]
    exact congrArg Except.ok (List.append_nil ts)
  rw [ofSource, h.checkSource_eq]
  by_cases hlong : s.maxInputLength < t.parenthesized.length
  · rw [if_pos hlong, if_pos hlong]
    rfl
  · rw [if_neg hlong, if_neg hlong]
    change (Token.ofSource s t.parenthesized >>= ofTokens s t.parenthesized.length) = _
    rw [hcut]
    change ofTokens s t.parenthesized.length d.tokens = _
    rw [ofTokens_tokens, htree, hopened]

end Texts

namespace Tree

/-- **The text of a tree is read as the tree.**  What a source was read as and is written
with parentheses around every operation is read as the same tree again, unless that text
is longer than a source may be, or opens more constructs at once than are allowed; then
it is refused for this reason. -/
theorem ofSource_parenthesized {s : Settings} {source : String} {t : Tree}
    (h : ofSource s source = .ok t) :
    ofSource s t.parenthesized =
      if s.maxInputLength < t.parenthesized.length then
        .error (.sourceTooLong s.maxInputLength)
      else if t.nesting ≤ s.maxDepth.toNat then .ok t
      else .error (.tooDeep s.maxDepth) :=
  (canonical_of_ofSource h).ofSource_eq

/-- The theorem on a source with signs in front of an operation and of a number. -/
theorem ofSource_parenthesized_difference :
    let t : Tree :=
      .binary .sub (.number ⟨15, -1⟩)
        (.negate (.binary .pow (.number ⟨2, 0⟩) (.number ⟨-3, 0⟩)))
    ofSource {} "1.50 - -(2 ** -3)" = .ok t ∧ ofSource {} t.parenthesized = .ok t := by
  intro t
  have hread : ofSource {} "1.50 - -(2 ** -3)" = .ok t := eq_ok_of_toOption (by decide +kernel)
  have hlength : ¬({} : Settings).maxInputLength < t.parenthesized.length := by decide +kernel
  have hnesting : t.nesting ≤ ({} : Settings).maxDepth.toNat := by decide
  refine ⟨hread, ?_⟩
  rw [ofSource_parenthesized hread, if_neg hlength, if_pos hnesting]

end Tree

end DecimalCalc
