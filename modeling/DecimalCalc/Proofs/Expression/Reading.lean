import DecimalCalc.Proofs.Expression.Grammar
import DecimalCalc.Proofs.Outcome
/-!
# Reading is deriving

The rules of the parser against the derivations of the grammar.

* `Derivation.reads` -- what a derivation derives is read as its tree, and the only thing
  that can be in the way is the limit on the constructs that are open at once.
* `Rules.comparisons_derives` -- what is read has a derivation.

Together they say which lists of tokens have a tree, and which one
(`Tree.ofTokens_iff_derivation`).  The depth of the rules counts the constructs
that are open, not those that were met before: a chain reads all its operands on
the same level.
-/

namespace DecimalCalc

open Grammar

namespace Rules

/-- The reader of a phrase, in terms of the rules one level deeper. -/
def reader (deeper : Rules) : Phrase → Reader
  | .chain .comparison => deeper.comparisons
  | .chain .additive =>
    (deeper.powers.chain Operator.isMultiplicative).chain Operator.isAdditive
  | .chain .term => deeper.powers.chain Operator.isMultiplicative
  | .power => deeper.powers
  | .unary => deeper.signed
  | .atom => deeper.atom

theorem reader_chain (deeper : Rules) (c : Chain) :
    deeper.reader (.chain c) = (deeper.reader c.operand).chain c.joins := by
  cases c <;> rfl

/-- The rules that a construct leads to where so many can still be opened. -/
def within : Nat → Rules
  | 0 => closed
  | limit + 1 => ofDepth limit

theorem ofDepth_eq_above (limit : Nat) : ofDepth limit = (within limit).above := by
  cases limit with
  | zero => rfl
  | succ limit => exact ofDepth_succ limit

theorem within_succ (limit : Nat) : within (limit + 1) = (within limit).above :=
  ofDepth_eq_above limit

end Rules

/-- A result that is there if no more constructs were open at once than the limit allows. -/
def withinLimit {α : Type} (limit opened : Nat) (a : α) : Except Stop α :=
  if opened ≤ limit then .ok a else .error .tooDeep

section Limit

variable {α β : Type} {limit opened opened' : Nat} {a : α} {b : β}

/-- One result after another: the most that was open counts. -/
theorem withinLimit_bind {f : α → Except Stop β} (h : f a = withinLimit limit opened' b) :
    (withinLimit limit opened a >>= f) = withinLimit limit (max opened opened') b := by
  unfold withinLimit at h ⊢
  by_cases ha : opened ≤ limit
  · rw [if_pos ha]
    change f a = _
    rw [h]
    simp only [Nat.max_le, ha, true_and]
  · have hmax : ¬ max opened opened' ≤ limit := by omega
    rw [if_neg ha, if_neg hmax]
    rfl

/-- A result that is only put into another form. -/
theorem withinLimit_map {f : α → Except Stop β} (h : f a = .ok b) :
    (withinLimit limit opened a >>= f) = withinLimit limit opened b := by
  have hzero : f a = withinLimit limit 0 b := by rw [h]; rfl
  have hbind : (withinLimit limit opened a >>= f) = withinLimit limit (max opened 0) b :=
    withinLimit_bind hzero
  rwa [Nat.max_zero] at hbind

theorem withinLimit_succ :
    withinLimit (limit + 1) (opened + 1) a = withinLimit limit opened a := by
  simp [withinLimit]

theorem withinLimit_zero_succ : withinLimit 0 (opened + 1) a = .error .tooDeep := by
  simp [withinLimit]

/-- The limit is the only thing in the way of a result. -/
theorem withinLimit_cases (limit opened : Nat) (a : α) :
    withinLimit limit opened a = .ok a ∨ withinLimit limit opened a = .error .tooDeep := by
  unfold withinLimit
  by_cases h : opened ≤ limit
  · exact .inl (if_pos h)
  · exact .inr (if_neg h)

end Limit

namespace Grammar.Derivation

open Rules

/-- What a derivation derives is read as what it stands for, under every limit, where the
phrase ends before the tokens that follow.  Further operands are read with as many steps
as there are tokens. -/
def Reads : {s : Symbol} → Derivation s → Prop
  | .phrase p, d => ∀ limit ts, p.EndsBefore ts →
      (within limit).reader p (d.tokens ++ ts) = withinLimit limit d.opened (d.tree, ts)
  | .further c, d => ∀ limit ts steps left, (Phrase.chain c).EndsBefore ts →
      (d.tokens ++ ts).length ≤ steps →
      ((within limit).reader c.operand).chainFrom c.joins steps left (d.tokens ++ ts) =
        withinLimit limit d.opened (d.joined left, ts)

section

variable {c : Chain} {limit place : Nat} {ts : List Token}

/-- A construct that leads to a phrase opens one level more: its rule is that of the phrase one
level deeper, and closed below the deepest level. -/
theorem Reads.deeper {p : Phrase} {d : Derivation (.phrase p)} (h : d.Reads)
    (hend : p.EndsBefore ts) (rule : Rules → Reader)
    (hclosed : ∀ ts, rule closed ts = .error .tooDeep)
    (habove : ∀ deeper, rule (above deeper) = deeper.reader p) :
    rule (within limit) (d.tokens ++ ts) = withinLimit limit (d.opened + 1) (d.tree, ts) := by
  cases limit with
  | zero => rw [withinLimit_zero_succ, within, hclosed]
  | succ limit =>
      rw [withinLimit_succ, within_succ, habove]
      exact h limit ts hend

/-- A chain is its first operand and then the others. -/
theorem reads_chain {first : Derivation (.phrase c.operand)} {rest : Derivation (.further c)}
    (hfirst : first.Reads) (hrest : rest.Reads) : (chain first rest).Reads := by
  intro limit ts hend
  have hhead := hfirst limit (rest.tokens ++ ts) (rest.operand_endsBefore hend)
  rw [reader_chain, tokens, List.append_assoc, Reader.chain, hhead]
  exact withinLimit_bind (hrest limit ts _ first.tree hend (Nat.le_refl _))

/-- Nothing is read where no operator of the chain follows. -/
theorem reads_done : (done : Derivation (.further c)).Reads := by
  intro limit ts steps left hend _
  change Reader.chainFrom _ _ steps left ts = .ok (left, ts)
  cases steps with
  | zero => rfl
  | succ steps =>
      unfold Reader.chainFrom
      split
      · next op place rest => simp [hend.joins]
      · rfl

theorem reads_more {op : Operator} {joins : c.joins op = true}
    {operand : Derivation (.phrase c.operand)} {rest : Derivation (.further c)}
    (hoperand : operand.Reads) (hrest : rest.Reads) :
    (more op place joins operand rest).Reads := by
  intro limit ts steps left hend hsteps
  obtain ⟨steps, rfl⟩ : ∃ n, steps = n + 1 := by
    refine ⟨steps - 1, ?_⟩
    simp [tokens] at hsteps
    omega
  have hlength : (rest.tokens ++ ts).length ≤ steps := by
    simp [tokens] at hsteps ⊢
    omega
  have hhead := hoperand limit (rest.tokens ++ ts) (rest.operand_endsBefore hend)
  rw [tokens, List.cons_append, List.append_assoc, Reader.chainFrom]
  simp only [joins, if_true]
  rw [hhead]
  exact withinLimit_bind (hrest limit ts steps _ hend hlength)

theorem reads_base {u : Derivation (.phrase .unary)} (hu : u.Reads) : (base u).Reads := by
  intro limit ts hend
  have hhead := hu limit ts (Phrase.unary_endsBefore ts)
  change (within limit).signed (u.tokens ++ ts) = _ at hhead
  change (within limit).powers (u.tokens ++ ts) = _
  rw [powers, hhead]
  refine withinLimit_map ?_
  dsimp only
  split
  · next place rest => exact absurd (hend .pow place rest rfl) (by simp [Phrase.continues])
  · rfl

theorem reads_power {u : Derivation (.phrase .unary)} {e : Derivation (.phrase .power)}
    (hu : u.Reads) (he : e.Reads) : (power u place e).Reads := by
  intro limit ts hend
  have hhead := hu limit (⟨.operator .pow, place⟩ :: (e.tokens ++ ts))
    (Phrase.unary_endsBefore _)
  change (within limit).signed _ = _ at hhead
  change (within limit).powers ((u.tokens ++ ⟨.operator .pow, place⟩ :: e.tokens) ++ ts) = _
  rw [List.append_assoc, List.cons_append, powers, hhead]
  refine withinLimit_bind ?_
  dsimp only
  rw [he.deeper hend Rules.power (fun _ => rfl) fun _ => rfl]
  exact withinLimit_map rfl

/-- An atom does not begin with a sign. -/
theorem reads_unsigned {a : Derivation (.phrase .atom)} (ha : a.Reads) : (unsigned a).Reads := by
  intro limit ts hend
  have hatom := ha limit ts (Phrase.atom_endsBefore ts)
  obtain ⟨t, rest, htokens, hop⟩ := a.atom_head
  change (within limit).signed (a.tokens ++ ts) = _
  rw [htokens, List.cons_append] at hatom ⊢
  rw [signed]
  · exact hatom
  · intro place rest' heq
    exact hop .sub (by rw [(List.cons.inj heq).1])
  · intro place rest' heq
    exact hop .add (by rw [(List.cons.inj heq).1])

theorem reads_plus {u : Derivation (.phrase .unary)} (hu : u.Reads) : (plus place u).Reads := by
  intro limit ts _
  change (within limit).unary (u.tokens ++ ts) = _
  exact hu.deeper (Phrase.unary_endsBefore ts) Rules.unary (fun _ => rfl) fun _ => rfl

theorem reads_minus {u : Derivation (.phrase .unary)} (hu : u.Reads) : (minus place u).Reads := by
  intro limit ts _
  change ((within limit).unary (u.tokens ++ ts) >>= fun read => pure (read.1.negated, read.2)) = _
  rw [hu.deeper (Phrase.unary_endsBefore ts) Rules.unary (fun _ => rfl) fun _ => rfl, tree_minus]
  exact withinLimit_map rfl

theorem reads_number {literal : String} {value : Decimal} :
    (number literal value place).Reads := by
  intro limit ts _
  rfl

theorem reads_group {inside : Sentence} {closing : Nat} (hinside : inside.Reads) :
    (group place inside closing).Reads := by
  intro limit ts _
  have hend : (Phrase.chain .comparison).EndsBefore (⟨.rightParen, closing⟩ :: ts) :=
    Phrase.endsBefore_cons (by simp)
  change (within limit).atom
    (⟨.leftParen, place⟩ :: (inside.tokens ++ [⟨.rightParen, closing⟩]) ++ ts) = _
  rw [List.cons_append, List.append_assoc, List.singleton_append, atom,
    hinside.deeper hend Rules.comparison (fun _ => rfl) fun _ => rfl]
  exact withinLimit_map rfl

end

/-- **Completeness.**  Every derivation reads as its tree, unless more constructs are open
at once than the limit allows. -/
theorem reads {s : Symbol} (d : Derivation s) : d.Reads := by
  induction d with
  | chain first rest ihFirst ihRest => exact reads_chain ihFirst ihRest
  | done => exact reads_done
  | more op place joins operand rest ihOperand ihRest => exact reads_more ihOperand ihRest
  | base operand ih => exact reads_base ih
  | power base place exponent ihBase ihExponent => exact reads_power ihBase ihExponent
  | unsigned operand ih => exact reads_unsigned ih
  | plus place operand ih => exact reads_plus ih
  | minus place operand ih => exact reads_minus ih
  | number literal value place => exact reads_number
  | group opening inside closing ih => exact reads_group ih

/-- A sentence is read to its end. -/
theorem reads_sentence (d : Sentence) (limit : Nat) :
    (within limit).comparisons d.tokens = withinLimit limit d.opened (d.tree, []) := by
  have hread := d.reads limit [] (Phrase.endsBefore_nil _)
  rw [List.append_nil] at hread
  exact hread

end Grammar.Derivation

/-! ## What is read has a derivation -/

/-- Whatever a reader takes off the front of a list has a derivation of the phrase. -/
def Reader.Derives (read : Reader) (p : Phrase) : Prop :=
  ∀ ⦃ts tree rest⦄, read ts = .ok (tree, rest) →
    ∃ d : Derivation (.phrase p), d.tree = tree ∧ d.tokens ++ rest = ts

/-- The rules that a construct can lead back to derive their phrases. -/
structure Rules.Derive (rules : Rules) : Prop where
  comparison : rules.comparison.Derives (.chain .comparison)
  power : rules.power.Derives .power
  unary : rules.unary.Derives .unary

section Soundness

variable {deeper : Rules}

theorem Rules.atom_derives (h : deeper.Derive) : deeper.atom.Derives .atom := by
  intro ts tree rest hread
  unfold atom at hread
  split at hread
  · next literal value place following =>
      cases hread
      exact ⟨.number literal value place, rfl, rfl⟩
  · next opening following =>
      obtain ⟨⟨inner, after⟩, hinside, hclosing⟩ := bind_eq_ok_iff.mp hread
      obtain ⟨d, rfl, rfl⟩ := h.comparison hinside
      dsimp only at hclosing
      split at hclosing
      · next closing following =>
          cases hclosing
          exact ⟨.group opening d closing, rfl, by simp [Derivation.tokens]⟩
      · cases hclosing
  · cases hread

theorem Rules.signed_derives (h : deeper.Derive) : deeper.signed.Derives .unary := by
  intro ts tree rest hread
  unfold signed at hread
  split at hread
  · next place following =>
      obtain ⟨⟨operand, after⟩, hoperand, hresult⟩ := bind_eq_ok_iff.mp hread
      obtain ⟨d, rfl, rfl⟩ := h.unary hoperand
      cases hresult
      exact ⟨.minus place d, by simp, rfl⟩
  · next place following =>
      obtain ⟨d, rfl, rfl⟩ := h.unary hread
      exact ⟨.plus place d, rfl, rfl⟩
  · obtain ⟨d, rfl, rfl⟩ := atom_derives h hread
    exact ⟨.unsigned d, rfl, rfl⟩

theorem Rules.powers_derives (h : deeper.Derive) : deeper.powers.Derives .power := by
  intro ts tree rest hread
  obtain ⟨⟨base, after⟩, hbase, hfurther⟩ := bind_eq_ok_iff.mp hread
  obtain ⟨d, rfl, rfl⟩ := signed_derives h hbase
  dsimp only at hfurther
  split at hfurther
  · next place following =>
      obtain ⟨⟨exponent, after⟩, hexponent, hresult⟩ := bind_eq_ok_iff.mp hfurther
      obtain ⟨e, rfl, rfl⟩ := h.power hexponent
      cases hresult
      exact ⟨.power d place e, rfl, by simp [Derivation.tokens]⟩
  · cases hfurther
    exact ⟨.base d, rfl, rfl⟩

/-- The operands of a chain after the first, by induction on the steps. -/
theorem Reader.chainFrom_derives {operand : Reader} {c : Chain}
    (h : operand.Derives c.operand) :
    ∀ steps left ts tree rest,
      operand.chainFrom c.joins steps left ts = .ok (tree, rest) →
      ∃ d : Derivation (.further c), d.joined left = tree ∧ d.tokens ++ rest = ts := by
  intro steps
  induction steps with
  | zero =>
      intro left ts tree rest hread
      cases hread
      exact ⟨.done, rfl, rfl⟩
  | succ steps ih =>
      intro left ts tree rest hread
      unfold chainFrom at hread
      split at hread
      · next op place following =>
          split at hread
          · next joins =>
              obtain ⟨⟨right, after⟩, hoperand, hfurther⟩ := bind_eq_ok_iff.mp hread
              obtain ⟨d, rfl, rfl⟩ := h hoperand
              obtain ⟨further, rfl, rfl⟩ := ih _ _ _ _ hfurther
              exact ⟨.more op place joins d further, rfl, by simp [Derivation.tokens]⟩
          · cases hread
            exact ⟨.done, rfl, rfl⟩
      · cases hread
        exact ⟨.done, rfl, rfl⟩

theorem Reader.chain_derives {operand : Reader} {c : Chain} (h : operand.Derives c.operand) :
    (operand.chain c.joins).Derives (.chain c) := by
  intro ts tree rest hread
  obtain ⟨⟨first, after⟩, hfirst, hfurther⟩ := bind_eq_ok_iff.mp hread
  obtain ⟨d, rfl, rfl⟩ := h hfirst
  obtain ⟨further, rfl, rfl⟩ := chainFrom_derives h _ _ _ _ _ hfurther
  exact ⟨.chain d further, rfl, by simp [Derivation.tokens]⟩

theorem Rules.comparisons_derives (h : deeper.Derive) :
    deeper.comparisons.Derives (.chain .comparison) := by
  have hterm : (deeper.powers.chain Chain.term.joins).Derives (.chain .term) :=
    Reader.chain_derives (powers_derives h)
  have hadditive : ((deeper.powers.chain Chain.term.joins).chain Chain.additive.joins).Derives
      (.chain .additive) := Reader.chain_derives hterm
  exact Reader.chain_derives (c := .comparison) hadditive

theorem Rules.closed_derive : closed.Derive where
  comparison := by intro ts tree rest h; cases h
  power := by intro ts tree rest h; cases h
  unary := by intro ts tree rest h; cases h

theorem Rules.above_derive (h : deeper.Derive) : deeper.above.Derive where
  comparison := comparisons_derives h
  power := powers_derives h
  unary := signed_derives h

/-- **Soundness.**  What is read on any level has a derivation, by induction on the levels. -/
theorem Rules.within_derive (limit : Nat) : (within limit).Derive := by
  induction limit with
  | zero => exact closed_derive
  | succ limit ih =>
      rw [within_succ]
      exact above_derive ih

end Soundness

/-! ## The lists of tokens that have a tree -/

namespace Tree

/-- The outcome for what a derivation derives: its tree, within the limit on open
constructs, and above the limit the error that says so. -/
theorem ofTokens_tokens (s : Settings) (length : Nat) (d : Sentence) :
    ofTokens s length d.tokens =
      if d.opened ≤ s.maxDepth.toNat then .ok d.tree else .error (.tooDeep s.maxDepth) := by
  unfold ofTokens
  rw [if_neg (d.tokens_ne_nil rfl), Rules.ofDepth_eq_above]
  dsimp only [Rules.above]
  rw [d.reads_sentence]
  unfold withinLimit
  by_cases hopened : d.opened ≤ s.maxDepth.toNat
  · rw [if_pos hopened, if_pos hopened]
    rfl
  · rw [if_neg hopened, if_neg hopened]
    rfl

/-- A list of tokens with a tree has a derivation. -/
theorem exists_derivation_of_ofTokens {s : Settings} {length : Nat} {ts : List Token}
    {t : Tree} (h : ofTokens s length ts = .ok t) :
    ∃ d : Sentence, d.tokens = ts ∧ d.tree = t := by
  unfold ofTokens at h
  split at h
  · cases h
  · rw [Rules.ofDepth_eq_above] at h
    dsimp only at h
    split at h
    · next tree hresult =>
        cases h
        obtain ⟨⟨read, rest⟩, hread, hrest⟩ := bind_eq_ok_iff.mp hresult
        obtain ⟨d, rfl, rfl⟩ := Rules.comparisons_derives (Rules.within_derive _) hread
        dsimp only at hrest
        split at hrest
        · next hnil =>
            cases hrest
            exact ⟨d, by simp [hnil], rfl⟩
        · cases hrest
    · cases h
    · cases h
    · cases h

/-- Tokens without a tree fail to parse, or open too many constructs. -/
theorem ofTokens_error {s : Settings} {length : Nat} {ts : List Token} {e : Error}
    (h : ofTokens s length ts = .error e) : e.kind = .parse ∨ e = .tooDeep s.maxDepth := by
  unfold ofTokens at h
  split at h
  · cases h
    exact .inl rfl
  · dsimp only at h
    split at h
    · cases h
    · cases h
      exact .inr rfl
    · cases h
      exact .inl rfl
    · cases h
      exact .inl rfl

/-- **The parser decides the grammar.**  A list of tokens has a tree exactly if it has a
derivation in which no more constructs are open at once than the limit allows; the
derivation is the only one, and the tree is its tree.  Every other list is an error of
syntax or of depth. -/
theorem ofTokens_iff_derivation (s : Settings) (length : Nat) :
    (∀ ts t, ofTokens s length ts = .ok t ↔
      ∃ d : Sentence, d.tokens = ts ∧ d.tree = t ∧ d.opened ≤ s.maxDepth.toNat) ∧
    (∀ d d' : Sentence, d.tokens = d'.tokens → d = d') ∧
    ∀ ts e, ofTokens s length ts = .error e →
      e.kind = .parse ∨ (e.kind = .validation ∧ e.code = "TOO_COMPLEX") := by
  refine ⟨?_, fun d d' h => Derivation.tokens_injective h, ?_⟩
  · intro ts t
    constructor
    · intro h
      obtain ⟨d, rfl, rfl⟩ := exists_derivation_of_ofTokens h
      rw [ofTokens_tokens] at h
      split at h
      · next hopened => exact ⟨d, rfl, rfl, hopened⟩
      · cases h
    · rintro ⟨d, rfl, rfl, hopened⟩
      rw [ofTokens_tokens, if_pos hopened]
  · intro ts e h
    rcases ofTokens_error h with hkind | rfl
    · exact .inl hkind
    · exact .inr ⟨rfl, rfl⟩

/-- The theorem on a power of a signed number, and on an open parenthesis. -/
theorem ofTokens_iff_derivation_power :
    ofTokens {} 6 [⟨.operator .sub, 0⟩, ⟨.number "2" ⟨2, 0⟩, 1⟩, ⟨.operator .pow, 2⟩,
      ⟨.number "3" ⟨3, 0⟩, 5⟩] = .ok (.binary .pow (.number ⟨-2, 0⟩) (.number ⟨3, 0⟩)) ∧
    ∀ e, ofTokens {} 1 [⟨.leftParen, 0⟩] = .error e →
      e.kind = .parse ∨ (e.kind = .validation ∧ e.code = "TOO_COMPLEX") := by
  have hiff := ofTokens_iff_derivation {}
  refine ⟨((hiff 6).1 _ _).mpr ?_, (hiff 1).2.2 _⟩
  refine ⟨.chain (.chain (.chain (.power (.minus 0 (.unsigned (.number "2" ⟨2, 0⟩ 1))) 2
    (.base (.unsigned (.number "3" ⟨3, 0⟩ 5)))) .done) .done) .done, rfl, rfl, by decide⟩

end Tree

end DecimalCalc
