import DecimalCalc.Proofs.Expression.Reading
/-!
# Reading looks one token ahead

What the parser does up to a token of a list does not depend on what stands behind the token
(`Reader.Local`): every rule looks at the first of the remaining tokens and then either takes
it, leaves it, or refuses it (`Reader.HeadCase`).  Rules that read one after the other keep
this (`Reader.Local.andThen`), and so do chains and the levels of the grammar
(`Rules.within_local`).

Hence no sentence continues what was refused (`Rules.refused`): with the sentence behind the
refused token in place of what stood there, the parser would refuse the token in the same
way, but it reads every sentence to its end.
-/

namespace DecimalCalc

open Grammar

/-! ## Properties of all rules -/

/-- A property of readers that the rules a construct can lead back to have for their
phrases. -/
structure Rules.Keep (P : Phrase → Reader → Prop) (rules : Rules) : Prop where
  comparison : P (.chain .comparison) rules.comparison
  power : P .power rules.power
  unary : P .unary rules.unary

section Keep

variable {P : Phrase → Reader → Prop}

theorem Rules.Keep.comparisons {deeper : Rules} (hpowers : P .power deeper.powers)
    (hchain : ∀ c read, P (Chain.operand c) read → P (.chain c) (read.chain c.joins)) :
    P (.chain .comparison) deeper.comparisons :=
  hchain .comparison _ (hchain .additive _ (hchain .term _ hpowers))

/-- **A property of the rules of every level**, by induction on the levels: the rules of the
grammar pass it on, and below the deepest level nothing is read. -/
theorem Rules.within_keep (hclosed : ∀ p, P p fun _ => .error .tooDeep)
    (hsigned : ∀ deeper : Rules, deeper.Keep P → P .unary deeper.signed)
    (hpowers : ∀ deeper : Rules, deeper.Keep P → P .power deeper.powers)
    (hchain : ∀ c read, P (Chain.operand c) read → P (.chain c) (read.chain c.joins))
    (limit : Nat) : (within limit).Keep P := by
  induction limit with
  | zero => exact ⟨hclosed _, hclosed _, hclosed _⟩
  | succ limit ih =>
      rw [within_succ]
      exact ⟨Keep.comparisons (hpowers _ ih) hchain, hpowers _ ih, hsigned _ ih⟩

end Keep

/-! ## Two lists that share a front -/

/-- At most so many tokens remain, whether a tree was read or the reading has stopped. -/
def Reader.Leaves (n : Nat) : Except Stop (Tree × List Token) → Prop
  | .ok (_, rest) => rest.length ≤ n
  | .error (.stuck rest) => rest.length ≤ n
  | .error .tooDeep => True

/-- Readings of two lists that share a front up to a token, with `a` and `b` behind it: the
first has gone beyond the token, or both come to the same end before it. -/
inductive Reader.SameWay (t : Token) (a b : List Token) :
    Except Stop (Tree × List Token) → Except Stop (Tree × List Token) → Prop where
  | beyond {r r' : Except Stop (Tree × List Token)} (h : Leaves a.length r) : SameWay t a b r r'
  | read (tree : Tree) (front : List Token) :
      SameWay t a b (.ok (tree, front ++ t :: a)) (.ok (tree, front ++ t :: b))
  | stuck (front : List Token) :
      SameWay t a b (.error (.stuck (front ++ t :: a))) (.error (.stuck (front ++ t :: b)))

/-- A reader never puts tokens back, and goes the same way through lists that share a
front. -/
structure Reader.Local (read : Reader) : Prop where
  leaves : ∀ ts, Leaves ts.length (read ts)
  same : ∀ t front a b, SameWay t a b (read (front ++ t :: a)) (read (front ++ t :: b))

namespace Reader

/-- One reader after the other, the second one with the tree of the first. -/
def andThen (read : Reader) (next : Tree → Reader) : Reader := fun ts =>
  read ts >>= fun outcome => next outcome.1 outcome.2

theorem Leaves.mono {n m : Nat} {r : Except Stop (Tree × List Token)} (h : Leaves n r)
    (hnm : n ≤ m) : Leaves m r := by
  match r, h with
  | .ok (_, rest), h => exact Nat.le_trans h hnm
  | .error (.stuck rest), h => exact Nat.le_trans h hnm
  | .error .tooDeep, _ => trivial

section Ends

variable {t : Token} {a b : List Token} {r r' : Except Stop (Tree × List Token)}

theorem SameWay.eq_stuck (h : SameWay t a b r r') (hr : r = .error (.stuck (t :: a))) :
    r' = .error (.stuck (t :: b)) := by
  cases h with
  | beyond h =>
      rw [hr] at h
      exact absurd h (Nat.not_succ_le_self _)
  | read tree front => cases hr
  | stuck front =>
      have hfront : front ++ t :: a = t :: a := by
        injection hr with hr
        injection hr
      rw [List.append_left_eq_self.mp hfront]
      rfl

theorem SameWay.eq_ok {tree : Tree} (h : SameWay t a b r r') (hr : r = .ok (tree, t :: a)) :
    r' = .ok (tree, t :: b) := by
  cases h with
  | beyond h =>
      rw [hr] at h
      exact absurd h (Nat.not_succ_le_self _)
  | read tree' front =>
      injection hr with hr
      obtain ⟨rfl, hfront⟩ := Prod.mk.inj hr
      rw [List.append_left_eq_self.mp hfront]
      rfl
  | stuck front => cases hr

end Ends

variable {read : Reader} {next : Tree → Reader}

/-- What is left after the second reader is left after the first. -/
theorem Leaves.andThen {n : Nat} {r : Except Stop (Tree × List Token)} (h : Leaves n r)
    (hnext : ∀ tree, Local (next tree)) :
    Leaves n (r >>= fun outcome => next outcome.1 outcome.2) := by
  match r, h with
  | .ok (tree, rest), h => exact ((hnext tree).leaves rest).mono h
  | .error (.stuck rest), h => exact h
  | .error .tooDeep, _ => trivial

/-- **Local readers one after the other** are local. -/
theorem Local.andThen (hread : Local read) (hnext : ∀ tree, Local (next tree)) :
    Local (read.andThen next) where
  leaves := fun ts => (hread.leaves ts).andThen hnext
  same := by
    intro t front a b
    unfold Reader.andThen
    have hsame := hread.same t front a b
    generalize read (front ++ t :: a) = r at hsame ⊢
    generalize read (front ++ t :: b) = r' at hsame ⊢
    cases hsame with
    | beyond h => exact .beyond (h.andThen hnext)
    | read tree rest => exact (hnext tree).same t rest a b
    | stuck rest => exact .stuck rest

/-! ## The first token -/

/-- What a reader does at a token: it takes the token and goes on with what is behind it, or
it leaves or refuses the token. -/
inductive HeadCase (read : Reader) (t : Token) : Prop where
  | takes (further : Reader) (hlocal : Local further)
      (h : ∀ rest, read (t :: rest) = further rest)
  | leaves (tree : Tree) (h : ∀ rest, read (t :: rest) = .ok (tree, t :: rest))
  | refuses (h : ∀ rest, read (t :: rest) = .error (.stuck (t :: rest)))

/-- **Looking at the first token is local**, whatever it is. -/
theorem Local.of_headCase (hnil : Leaves 0 (read [])) (h : ∀ t, HeadCase read t) :
    Local read where
  leaves := by
    intro ts
    cases ts with
    | nil => exact hnil
    | cons t rest =>
        cases h t with
        | takes further hlocal heq =>
            rw [heq]
            exact (hlocal.leaves rest).mono (Nat.le_succ _)
        | leaves tree heq =>
            rw [heq]
            exact Nat.le_refl _
        | refuses heq =>
            rw [heq]
            exact Nat.le_refl _
  same := by
    intro t front a b
    cases front with
    | nil =>
        rw [List.nil_append, List.nil_append]
        cases h t with
        | takes further hlocal heq =>
            rw [heq a]
            exact .beyond (hlocal.leaves a)
        | leaves tree heq =>
            rw [heq, heq]
            exact .read tree []
        | refuses heq =>
            rw [heq, heq]
            exact .stuck []
    | cons u front =>
        rw [List.cons_append, List.cons_append]
        cases h u with
        | takes further hlocal heq =>
            rw [heq, heq]
            exact hlocal.same t front a b
        | leaves tree heq =>
            rw [heq, heq]
            exact .read tree (u :: front)
        | refuses heq =>
            rw [heq, heq]
            exact .stuck (u :: front)

/-- A tree without a token. -/
def done (tree : Tree) : Reader := fun ts => .ok (tree, ts)

theorem local_done (tree : Tree) : Local (done tree) :=
  .of_headCase (Nat.le_refl 0) fun _ => .leaves tree fun _ => rfl

theorem local_tooDeep : Local fun _ => .error .tooDeep where
  leaves := fun _ => trivial
  same := fun _ _ _ _ => .beyond trivial

/-! ## Chains -/

section Chains

variable {joins : Operator → Bool}

/-- As many steps as there are tokens are enough for a chain, and more change nothing. -/
theorem chainFrom_steps (hread : Local read) {n m : Nat} :
    ∀ {ts : List Token} (tree : Tree), ts.length ≤ n → ts.length ≤ m →
      read.chainFrom joins n tree ts = read.chainFrom joins m tree ts := by
  induction n generalizing m with
  | zero =>
      intro ts tree hn _
      rw [List.length_eq_zero_iff.mp (Nat.le_zero.mp hn)]
      cases m <;> rfl
  | succ n ih =>
      intro ts tree hn hm
      cases m with
      | zero =>
          rw [List.length_eq_zero_iff.mp (Nat.le_zero.mp hm)]
          rfl
      | succ m =>
          unfold chainFrom
          split
          · next op place rest =>
              rw [List.length_cons] at hn hm
              have hleaves := hread.leaves rest
              split
              · generalize read rest = r at hleaves
                match r, hleaves with
                | .ok (right, after), hleaves =>
                    have hafter : after.length ≤ rest.length := hleaves
                    exact ih _ (by omega) (by omega)
                | .error stop, _ => rfl
              · rfl
          · rfl

theorem local_chainFrom (hread : Local read) (steps : Nat) (tree : Tree) :
    Local (read.chainFrom joins steps tree) := by
  induction steps generalizing tree with
  | zero => exact local_done tree
  | succ steps ih =>
      refine .of_headCase (Nat.le_refl 0) ?_
      rintro ⟨lexeme, place⟩
      cases lexeme with
      | operator op =>
          by_cases hjoins : joins op = true
          · refine .takes (read.andThen fun right =>
              read.chainFrom joins steps (.binary op tree right)) (hread.andThen fun _ => ih _) ?_
            intro rest
            rw [chainFrom, if_pos hjoins]
            rfl
          · refine .leaves tree ?_
            intro rest
            rw [chainFrom, if_neg hjoins]
      | number literal value => exact .leaves tree fun _ => rfl
      | leftParen => exact .leaves tree fun _ => rfl
      | rightParen => exact .leaves tree fun _ => rfl

/-- **Chains are local.**  Two lists may be of different lengths, but the steps of the longer
one are enough for both. -/
theorem local_chain (hread : Local read) : Local (read.chain joins) := by
  have hfurther : ∀ tree, Local fun ts => read.chainFrom joins ts.length tree ts := by
    intro tree
    constructor
    · intro ts
      exact (local_chainFrom hread ts.length tree).leaves ts
    · intro t front a b
      have hsteps : ∀ (ts : List Token) n, ts.length ≤ n →
          read.chainFrom joins ts.length tree ts = read.chainFrom joins n tree ts :=
        fun ts n hn => chainFrom_steps hread tree (Nat.le_refl _) hn
      rw [hsteps (front ++ t :: a) _ (Nat.le_max_left _ (front ++ t :: b).length),
        hsteps (front ++ t :: b) _ (Nat.le_max_right (front ++ t :: a).length _)]
      exact (local_chainFrom hread _ tree).same t front a b
  exact hread.andThen hfurther

end Chains

end Reader

/-! ## The rules -/

namespace Rules

open Reader

variable {deeper : Rules}

/-- The closing parenthesis behind a tree. -/
def closing (tree : Tree) : Reader
  | ⟨.rightParen, _⟩ :: rest => .ok (tree, rest)
  | rest => .error (.stuck rest)

theorem local_closing (tree : Tree) : Local (closing tree) := by
  refine .of_headCase (Nat.le_refl 0) ?_
  rintro ⟨lexeme, place⟩
  cases lexeme with
  | rightParen => exact .takes (done tree) (local_done tree) fun _ => rfl
  | number literal value => exact .refuses fun _ => rfl
  | leftParen => exact .refuses fun _ => rfl
  | operator op => exact .refuses fun _ => rfl

theorem headCase_atom (h : deeper.Keep fun _ => Local) (t : Token) :
    HeadCase deeper.atom t := by
  obtain ⟨lexeme, place⟩ := t
  cases lexeme with
  | number literal value => exact .takes (done (.number value)) (local_done _) fun _ => rfl
  | leftParen =>
      exact .takes (deeper.comparison.andThen closing) (h.comparison.andThen local_closing)
        fun _ => rfl
  | rightParen => exact .refuses fun _ => rfl
  | operator op => exact .refuses fun _ => rfl

theorem local_signed (h : deeper.Keep fun _ => Local) : Local deeper.signed := by
  refine .of_headCase (Nat.le_refl 0) ?_
  intro t
  have hatom := headCase_atom h t
  by_cases hminus : t.lexeme = .operator .sub
  · obtain ⟨lexeme, place⟩ := t
    cases hminus
    exact .takes (deeper.unary.andThen fun tree => done tree.negated)
      (h.unary.andThen fun _ => local_done _) fun _ => rfl
  by_cases hplus : t.lexeme = .operator .add
  · obtain ⟨lexeme, place⟩ := t
    cases hplus
    exact .takes deeper.unary h.unary fun _ => rfl
  -- an atom otherwise
  have heq : ∀ rest, deeper.signed (t :: rest) = deeper.atom (t :: rest) := by
    intro rest
    unfold signed
    split
    · next hcons => exact absurd (congrArg Token.lexeme (List.cons.inj hcons).1) hminus
    · next hcons => exact absurd (congrArg Token.lexeme (List.cons.inj hcons).1) hplus
    · rfl
  cases hatom with
  | takes further hlocal hatom =>
      exact .takes further hlocal fun rest => (heq rest).trans (hatom rest)
  | leaves tree hatom => exact .leaves tree fun rest => (heq rest).trans (hatom rest)
  | refuses hatom => exact .refuses fun rest => (heq rest).trans (hatom rest)

/-- The exponent behind a base, if there is one. -/
def exponent (deeper : Rules) (base : Tree) : Reader
  | ⟨.operator .pow, _⟩ :: rest =>
    deeper.power.andThen (fun exponent => done (.binary .pow base exponent)) rest
  | rest => .ok (base, rest)

/-- Without the sign of a power the base is left alone. -/
theorem exponent_of_ne {base : Tree} {ts : List Token}
    (h : ∀ place rest, ts ≠ ⟨.operator .pow, place⟩ :: rest) :
    deeper.exponent base ts = .ok (base, ts) := by
  unfold exponent
  split
  · next place rest => exact absurd rfl (h place rest)
  · rfl

theorem local_exponent (h : deeper.Keep fun _ => Local) (base : Tree) :
    Local (deeper.exponent base) := by
  refine .of_headCase (Nat.le_refl 0) ?_
  intro t
  by_cases hpow : t.lexeme = .operator .pow
  · obtain ⟨lexeme, place⟩ := t
    cases hpow
    exact .takes (deeper.power.andThen fun exponent => done (.binary .pow base exponent))
      (h.power.andThen fun _ => local_done _) fun _ => rfl
  · refine .leaves base fun rest => exponent_of_ne ?_
    intro place following hcons
    exact hpow (congrArg Token.lexeme (List.cons.inj hcons).1)

theorem local_powers (h : deeper.Keep fun _ => Local) : Local deeper.powers := by
  have heq : deeper.powers = deeper.signed.andThen deeper.exponent := by
    funext ts
    unfold powers andThen
    refine congrArg (deeper.signed ts >>= ·) ?_
    funext outcome
    obtain ⟨base, rest⟩ := outcome
    dsimp only
    split
    · rfl
    · next hother => exact (exponent_of_ne hother).symm
  rw [heq]
  exact (local_signed h).andThen (local_exponent h)

theorem within_local (limit : Nat) : (within limit).Keep fun _ => Local :=
  within_keep (fun _ => local_tooDeep) (fun _ => local_signed) (fun _ => local_powers)
    (fun _ _ => local_chain) limit

/-! ## Refused tokens -/

/-- The reading of a whole expression stops in front of these tokens: they are refused, or
they are left over. -/
def StopsAt (limit : Nat) (ts rest : List Token) : Prop :=
  (within limit).comparisons ts = .error (.stuck rest) ∨
    ∃ tree, (within limit).comparisons ts = .ok (tree, rest)

/-- **What stands behind a refused token does not matter.** -/
theorem StopsAt.replace {limit : Nat} {t : Token} {front rest : List Token}
    (h : StopsAt limit (front ++ t :: rest) (t :: rest)) (more : List Token) :
    StopsAt limit (front ++ t :: more) (t :: more) := by
  have hkeep := within_local limit
  have hlocal : Local (within limit).comparisons :=
    Keep.comparisons (P := fun _ => Local) (local_powers hkeep) fun _ _ => local_chain
  have hsame := hlocal.same t front rest more
  rcases h with hstuck | ⟨tree, hleft⟩
  · exact .inl (hsame.eq_stuck hstuck)
  · exact .inr ⟨tree, hsame.eq_ok hleft⟩

/-- A sentence is read to its end, so the reading does not stop before. -/
theorem not_stopsAt_tokens (limit : Nat) (d : Sentence) (t : Token) (rest : List Token) :
    ¬ StopsAt limit d.tokens (t :: rest) := by
  have hread := d.reads_sentence limit
  rintro (hstuck | ⟨tree, hleft⟩)
  · rw [hstuck] at hread
    rcases withinLimit_cases limit d.opened (d.tree, []) with hok | hdeep
    · cases hread.trans hok
    · cases hread.trans hdeep
  · rw [hleft] at hread
    rcases withinLimit_cases limit d.opened (d.tree, []) with hok | hdeep
    · cases hread.trans hok
    · cases hread.trans hdeep

/-- **No sentence continues what was refused.** -/
theorem StopsAt.refused {limit : Nat} {t : Token} {front rest : List Token}
    (h : StopsAt limit (front ++ t :: rest) (t :: rest)) (d : Sentence) (more : List Token) :
    d.tokens ≠ front ++ t :: more := by
  intro htokens
  have hstops := h.replace more
  rw [← htokens] at hstops
  exact not_stopsAt_tokens limit d t more hstops

end Rules

end DecimalCalc
