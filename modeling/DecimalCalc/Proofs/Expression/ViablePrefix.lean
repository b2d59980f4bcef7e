import DecimalCalc.Proofs.Expression.Lookahead
import DecimalCalc.Proofs.Expression.TokenLayout
/-!
# The first point of failure

A list of tokens is viable if some sentence begins with it.  The parser stops at the first
token that makes what it has taken not viable:

* what it has taken is viable, because every rule in progress can be brought to an end
  (`Reader.Completes`): an operand with a number, a parenthesis with the closing one, and
  whatever encloses them in the same way, and
* with the token it stops at, it is not (`Rules.StopsAt.refused`).

Positions increase along the tokens of a source, so the position in the error tells which
token it was (`Tree.ofTokens_earliest`).
-/

namespace DecimalCalc

open Grammar

/-- A list of tokens that a sentence begins with. -/
def Grammar.Viable (ts : List Token) : Prop := ∃ d : Sentence, ts <+: d.tokens

/-- What is taken from a list, up to the remaining tokens, begins something that a symbol
derives. -/
def Grammar.Symbol.Begins (s : Symbol) (ts rest : List Token) : Prop :=
  ∃ front, ts = front ++ rest ∧ ∃ d : Derivation s, front <+: d.tokens

/-- A beginning stays one behind the tokens with which a larger derivation goes on to it. -/
theorem Grammar.Symbol.Begins.enclose {s s' : Symbol} {ts rest : List Token}
    (h : s.Begins ts rest) (before : List Token)
    (hd : ∀ d : Derivation s, ∃ d' : Derivation s', before ++ d.tokens <+: d'.tokens) :
    s'.Begins (before ++ ts) rest := by
  obtain ⟨front, rfl, d, hfront⟩ := h
  obtain ⟨d', hd'⟩ := hd d
  have hbefore : before ++ front <+: before ++ d.tokens :=
    (List.prefix_append_right_inj before).mpr hfront
  exact ⟨before ++ front, (List.append_assoc before front rest).symm, d', hbefore.trans hd'⟩

/-- A reader takes what it derives, and where it stops it has taken the beginning of
something that its phrase derives. -/
structure Reader.Completes (p : Phrase) (read : Reader) : Prop where
  derives : read.Derives p
  begins : ∀ {ts rest}, read ts = .error (.stuck rest) → (Symbol.phrase p).Begins ts rest

namespace Rules

variable {deeper : Rules}

theorem Keep.derive (h : deeper.Keep Reader.Completes) : deeper.Derive :=
  ⟨h.comparison.derives, h.power.derives, h.unary.derives⟩

/-- An atom that is begun can be brought to an end: by a number, or by a parenthesis. -/
theorem begins_atom (h : deeper.Keep Reader.Completes) {ts rest : List Token}
    (hread : deeper.atom ts = .error (.stuck rest)) : (Symbol.phrase .atom).Begins ts rest := by
  unfold atom at hread
  split at hread
  · cases hread
  · next opening following =>
      have hclosed : ∀ d : Sentence, [⟨.leftParen, opening⟩] ++ d.tokens <+:
          (Derivation.group opening d 0).tokens :=
        fun d => ⟨[⟨.rightParen, 0⟩], rfl⟩
      rcases bind_eq_error_iff.mp hread with hinside | ⟨⟨inner, after⟩, hinside, hclosing⟩
      · exact (h.comparison.begins hinside).enclose [⟨.leftParen, opening⟩]
          fun d => ⟨.group opening d 0, hclosed d⟩
      · obtain ⟨d, -, rfl⟩ := h.comparison.derives hinside
        dsimp only at hclosing
        split at hclosing
        · cases hclosing
        · cases hclosing
          exact ⟨[⟨.leftParen, opening⟩] ++ d.tokens, rfl, _, hclosed d⟩
  · cases hread
    exact ⟨[], rfl, .number "0" Decimal.zero 0, List.nil_prefix⟩

theorem completes_signed (h : deeper.Keep Reader.Completes) :
    Reader.Completes .unary deeper.signed where
  derives := signed_derives h.derive
  begins := by
    intro ts rest hread
    unfold signed at hread
    split at hread
    · next place following =>
        rcases bind_eq_error_iff.mp hread with hoperand | ⟨outcome, -, hresult⟩
        · exact (h.unary.begins hoperand).enclose [⟨.operator .sub, place⟩]
            fun d => ⟨.minus place d, List.prefix_refl _⟩
        · cases hresult
    · next place following =>
        exact (h.unary.begins hread).enclose [⟨.operator .add, place⟩]
          fun d => ⟨.plus place d, List.prefix_refl _⟩
    · exact (begins_atom h hread).enclose [] fun d => ⟨.unsigned d, List.prefix_refl _⟩

theorem completes_powers (h : deeper.Keep Reader.Completes) :
    Reader.Completes .power deeper.powers where
  derives := powers_derives h.derive
  begins := by
    intro ts rest hread
    rcases bind_eq_error_iff.mp hread with hbase | ⟨⟨base, after⟩, hbase, hfurther⟩
    · exact ((completes_signed h).begins hbase).enclose []
        fun d => ⟨.base d, List.prefix_refl _⟩
    · obtain ⟨u, -, rfl⟩ := (completes_signed h).derives hbase
      dsimp only at hfurther
      split at hfurther
      · next place following =>
          rcases bind_eq_error_iff.mp hfurther with hexponent | ⟨outcome, -, hresult⟩
          · have hbegins : (Symbol.phrase .power).Begins
                ((u.tokens ++ [⟨.operator .pow, place⟩]) ++ following) rest :=
              (h.power.begins hexponent).enclose _
                fun e => ⟨.power u place e, by simp [Derivation.tokens]⟩
            rwa [List.append_assoc] at hbegins
          · cases hresult
      · cases hfurther

end Rules

namespace Reader

variable {c : Chain} {operand : Reader}

/-- Further operands that are begun can be brought to an end, by induction on the steps. -/
theorem begins_chainFrom (h : operand.Completes c.operand) (steps : Nat) :
    ∀ {left : Tree} {ts rest : List Token},
      operand.chainFrom c.joins steps left ts = .error (.stuck rest) →
      (Symbol.further c).Begins ts rest := by
  induction steps with
  | zero =>
      intro left ts rest hread
      cases hread
  | succ steps ih =>
      intro left ts rest hread
      unfold chainFrom at hread
      split at hread
      · next op place following =>
          split at hread
          · next joins =>
              rcases bind_eq_error_iff.mp hread with
                hoperand | ⟨⟨right, after⟩, hoperand, hfurther⟩
              · exact (h.begins hoperand).enclose [⟨.operator op, place⟩]
                  fun d => ⟨.more op place joins d .done, by simp [Derivation.tokens]⟩
              · obtain ⟨d, -, rfl⟩ := h.derives hoperand
                exact (ih hfurther).enclose (⟨.operator op, place⟩ :: d.tokens)
                  fun further => ⟨.more op place joins d further, List.prefix_refl _⟩
          · cases hread
      · cases hread

theorem completes_chain (h : operand.Completes c.operand) :
    Completes (.chain c) (operand.chain c.joins) where
  derives := chain_derives h.derives
  begins := by
    intro ts rest hread
    rcases bind_eq_error_iff.mp hread with hfirst | ⟨⟨first, after⟩, hfirst, hfurther⟩
    · exact (h.begins hfirst).enclose []
        fun d => ⟨.chain d .done, by simp [Derivation.tokens]⟩
    · obtain ⟨d, -, rfl⟩ := h.derives hfirst
      exact (begins_chainFrom h _ hfurther).enclose d.tokens
        fun further => ⟨.chain d further, List.prefix_refl _⟩

theorem completes_tooDeep (p : Phrase) : Completes p fun _ => .error .tooDeep where
  derives := by
    intro ts tree rest h
    cases h
  begins := by
    intro ts rest h
    cases h

end Reader

namespace Rules

/-- **What the rules of any level take is the beginning of a phrase**, by induction on the
levels. -/
theorem within_completes (limit : Nat) : (within limit).Keep Reader.Completes :=
  within_keep Reader.completes_tooDeep (fun _ => completes_signed) (fun _ => completes_powers)
    (fun _ _ => Reader.completes_chain) limit

/-- **What was taken before a stop is viable.** -/
theorem StopsAt.viable {limit : Nat} {ts rest : List Token} (h : StopsAt limit ts rest) :
    ∃ front, ts = front ++ rest ∧ Viable front := by
  have hcompletes : Reader.Completes (.chain .comparison) (within limit).comparisons :=
    Keep.comparisons (completes_powers (within_completes limit))
      fun _ _ => Reader.completes_chain
  rcases h with hstuck | ⟨tree, hleft⟩
  · exact hcompletes.begins hstuck
  · obtain ⟨d, -, rfl⟩ := hcompletes.derives hleft
    exact ⟨d.tokens, rfl, d, List.prefix_refl _⟩

/-- **At a stop the list ceases to be viable.** -/
theorem StopsAt.exists_earliest {limit : Nat} {t : Token} {ts rest : List Token}
    (h : StopsAt limit ts (t :: rest)) :
    ∃ i, ts[i]? = some t ∧ Viable (ts.take i) ∧ ¬ Viable (ts.take (i + 1)) := by
  obtain ⟨front, rfl, hviable⟩ := h.viable
  refine ⟨front.length, by simp, by simpa using hviable, ?_⟩
  rintro ⟨d, more, hd⟩
  have htaken : (front ++ t :: rest).take (front.length + 1) = front ++ [t] := by
    simp [List.take_append]
  rw [htaken, List.append_assoc, List.singleton_append] at hd
  exact h.refused d more hd.symm

end Rules

namespace Tree

variable {s : Settings} {length : Nat} {ts : List Token} {e : Error}

/-- Where the parser stops, by the error that it ends with. -/
theorem stop_of_ofTokens (h : ofTokens s length ts = .error e) :
    e = .emptyExpression ∨ e = .tooDeep s.maxDepth ∨
      (∃ t, ts.getLast? = some t ∧ e = .unexpectedEnd t.lexeme.text length ∧
        (Rules.within s.maxDepth.toNat).comparisons ts = .error (.stuck [])) ∨
      ∃ t rest, Rules.StopsAt s.maxDepth.toNat ts (t :: rest) ∧
        e = .unexpectedToken t.lexeme.text t.position := by
  unfold ofTokens at h
  split at h
  · cases h
    exact .inl rfl
  · next hne =>
      rw [Rules.ofDepth_eq_above] at h
      dsimp only at h
      split at h
      · cases h
      · cases h
        exact .inr (.inl rfl)
      · next hresult =>
          cases h
          obtain ⟨t, hlast⟩ : ∃ t, ts.getLast? = some t :=
            ⟨ts.getLast hne, List.getLast?_eq_some_getLast hne⟩
          refine .inr (.inr (.inl ⟨t, hlast, by rw [hlast]; rfl, ?_⟩))
          rcases bind_eq_error_iff.mp hresult with hstuck | ⟨⟨tree, rest⟩, -, hleft⟩
          · exact hstuck
          · dsimp only at hleft
            split at hleft
            · cases hleft
            · next hrest =>
                cases hleft
                exact absurd rfl hrest
      · next t rest hresult =>
          cases h
          refine .inr (.inr (.inr ⟨t, rest, ?_, rfl⟩))
          rcases bind_eq_error_iff.mp hresult with hstuck | ⟨⟨tree, rest'⟩, hread, hleft⟩
          · exact .inl hstuck
          · dsimp only at hleft
            split at hleft
            · cases hleft
            · cases hleft
              exact .inr ⟨tree, hread⟩

/-- **An unexpected end** comes before the end of a sentence. -/
theorem viable_of_unexpectedEnd {limit : Nat}
    (h : (Rules.within limit).comparisons ts = .error (.stuck [])) :
    Viable ts ∧ ∀ d : Sentence, d.tokens ≠ ts := by
  constructor
  · obtain ⟨front, hfront, hviable⟩ := Rules.StopsAt.viable (.inl h)
    rwa [hfront, List.append_nil]
  · rintro d rfl
    rw [d.reads_sentence] at h
    rcases withinLimit_cases limit d.opened (d.tree, []) with hok | hdeep
    · cases hok.symm.trans h
    · cases hdeep.symm.trans h

/-- **Syntax errors are reported at the earliest point of failure.**  The tokens of a source
before the one that an error names begin a sentence, and with it they begin none; the
position in the error tells which token it is.  Tokens that end too early begin a sentence
and are none, and the error names the last one. -/
theorem ofTokens_earliest {source : String} (hts : Token.ofSource s source = .ok ts)
    (he : ofTokens s length ts = .error e) :
    (e.code = "UNEXPECTED_TOKEN" →
      ∃ i t, ts[i]? = some t ∧ e = .unexpectedToken t.lexeme.text t.position ∧
        (∀ j u, ts[j]? = some u → u.position = t.position → j = i) ∧
        Viable (ts.take i) ∧ ¬ Viable (ts.take (i + 1))) ∧
    (e.code = "UNEXPECTED_END" →
      Viable ts ∧ (∀ d : Sentence, d.tokens ≠ ts) ∧
        ∃ t, ts.getLast? = some t ∧ e = .unexpectedEnd t.lexeme.text length ∧
          e.message = "Unexpected end of expression after \"" ++ t.lexeme.text ++ "\"") := by
  have hcovers := (Token.layout_of_ofCharsAt hts).covers [] rfl
  obtain rfl | rfl | ⟨t, hlast, rfl, hstuck⟩ | ⟨t, rest, hstops, rfl⟩ := stop_of_ofTokens he
  · exact ⟨by simp [Error.code], by simp [Error.code]⟩
  · exact ⟨by simp [Error.code], by simp [Error.code]⟩
  · refine ⟨by simp [Error.code], fun _ => ?_⟩
    obtain ⟨hviable, hnone⟩ := viable_of_unexpectedEnd hstuck
    exact ⟨hviable, hnone, t, hlast, rfl, rfl⟩
  · refine ⟨fun _ => ?_, by simp [Error.code]⟩
    obtain ⟨i, hi, hviable, hearliest⟩ := hstops.exists_earliest
    exact ⟨i, t, hi, rfl, fun j u hj hu => hcovers.index_eq hj hi hu, hviable, hearliest⟩

/-- The theorem on an operator without a left operand, and on an open parenthesis. -/
theorem ofTokens_earliest_product :
    let ts : List Token :=
      [⟨.number "2" ⟨2, 0⟩, 0⟩, ⟨.operator .add, 2⟩, ⟨.operator .mul, 4⟩,
        ⟨.number "3" ⟨3, 0⟩, 6⟩]
    let ts' : List Token := [⟨.number "2" ⟨2, 0⟩, 0⟩, ⟨.operator .add, 2⟩, ⟨.leftParen, 4⟩]
    (Token.ofSource {} "2 + * 3" = .ok ts ∧
      ofTokens {} 7 ts = .error (.unexpectedToken "*" 4) ∧
      Viable (ts.take 2) ∧ ¬ Viable (ts.take 3)) ∧
    Token.ofSource {} "2 + (" = .ok ts' ∧
      ofTokens {} 5 ts' = .error (.unexpectedEnd "(" 5) ∧
      Viable ts' ∧ ∀ d : Sentence, d.tokens ≠ ts' := by
  intro ts ts'
  have hts : Token.ofSource {} "2 + * 3" = .ok ts := by decide +kernel
  have hts' : Token.ofSource {} "2 + (" = .ok ts' := by decide +kernel
  have he : ofTokens {} 7 ts = .error (.unexpectedToken "*" 4) := rfl
  have he' : ofTokens {} 5 ts' = .error (.unexpectedEnd "(" 5) := rfl
  obtain ⟨i, t, -, hnames, hindex, hviable, hearliest⟩ := (ofTokens_earliest hts he).1 rfl
  have hposition : 4 = t.position := (Error.unexpectedToken.inj hnames).2
  obtain rfl : 2 = i := hindex 2 ⟨.operator .mul, 4⟩ rfl hposition
  obtain ⟨hends, hnone, -⟩ := (ofTokens_earliest hts' he').2 rfl
  exact ⟨⟨hts, he, hviable, hearliest⟩, hts', he', hends, hnone⟩

end Tree

end DecimalCalc
