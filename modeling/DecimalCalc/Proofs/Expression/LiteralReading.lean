import DecimalCalc.Decimal.Conversion
import DecimalCalc.Proofs.Decimal.NormalForm
import DecimalCalc.Proofs.Expression.Rendering
import Mathlib.Data.List.TakeWhile
/-!
# Reading literals

A literal may be spelled in many ways: with zeros in front, with zeros after the point, with
a power of ten, and with digits of any script.  Read by itself it keeps the exponent that its
spelling gives it; as an operand of an expression it is read as the normal form of the same
number.  The two readings differ in what they accept, too: `IsLiteral` is a text that both
do.

* `Piece.number_append_closes` -- a number ends where its operand does, so what follows does
  not change how it is cut off,
* `Literal.rest_number` -- a literal is cut off whole, unless it ends in a point,
* `IsLiteral.lexes` -- the tokens of a literal derive the normal form of its number, and
* `Tree.ofSource_operation` -- two literals with an operator between them are read as the
  operation on the normal forms.
-/

namespace DecimalCalc

open Text Numeral Decimal Grammar

/-! ## Where a number ends -/

section Runs

variable {p : Char → Bool} {rest : List Char}

/-- A run that nothing of its class follows is the same without what follows. -/
theorem Text.takeWhile_append_of_closed (cs : List Char) (hrest : rest.takeWhile p = []) :
    (cs ++ rest).takeWhile p = cs.takeWhile p := by
  rw [List.takeWhile_append, hrest, List.append_nil]
  split
  · next hall => exact (List.takeWhile_prefix p).eq_of_length hall |>.symm
  · rfl

theorem Text.dropWhile_append_of_closed (cs : List Char) (hrest : rest.takeWhile p = []) :
    (cs ++ rest).dropWhile p = cs.dropWhile p ++ rest := by
  have hwhole := List.takeWhile_append_dropWhile (p := p) (l := cs ++ rest)
  have hfront := List.takeWhile_append_dropWhile (p := p) (l := cs)
  rw [takeWhile_append_of_closed cs hrest] at hwhole
  rw [← List.append_right_inj (cs.takeWhile p), hwhole, ← List.append_assoc, hfront]

end Runs

namespace Piece

variable {rest : List Char}

theorem splitFraction_of_ne {c : Char} (hc : c ≠ '.') (cs : List Char) :
    splitFraction (c :: cs) = ([], c :: cs) := by
  unfold splitFraction
  split
  · next heq => exact absurd (List.cons.inj heq).1 hc
  · rfl

theorem splitFraction_append_closes (cs : List Char) (hrest : Closes rest) :
    splitFraction (cs ++ rest) = ((splitFraction cs).1, (splitFraction cs).2 ++ rest) := by
  cases cs with
  | nil => exact hrest.splitFraction_eq
  | cons c cs =>
      by_cases hc : c = '.'
      · rw [hc, List.cons_append, splitFraction, splitFraction,
          takeWhile_append_of_closed cs hrest.takeWhile_isDigit,
          dropWhile_append_of_closed cs hrest.takeWhile_isDigit]
        split
        · rfl
        · rfl
      · rw [List.cons_append, splitFraction_of_ne hc, splitFraction_of_ne hc]
        rfl

theorem splitSign_append_closes (cs : List Char) (hrest : Closes rest) :
    splitSign (cs ++ rest) = ((splitSign cs).1, (splitSign cs).2 ++ rest) := by
  cases cs with
  | nil => cases hrest <;> rfl
  | cons c cs =>
      by_cases hplus : c = '+'
      · rw [hplus]
        rfl
      by_cases hminus : c = '-'
      · rw [hminus]
        rfl
      · simp [splitSign, hplus, hminus]

theorem splitPower_append_closes (cs : List Char) (hrest : Closes rest) :
    splitPower (cs ++ rest) = ((splitPower cs).1, (splitPower cs).2 ++ rest) := by
  cases cs with
  | nil => exact hrest.splitPower_eq
  | cons c cs =>
      rw [List.cons_append, splitPower, splitPower, splitSign_append_closes cs hrest]
      dsimp only
      rw [takeWhile_append_of_closed _ hrest.takeWhile_isDigit,
        dropWhile_append_of_closed _ hrest.takeWhile_isDigit]
      split
      · rfl
      · rfl

/-- **A number ends where its operand does.** -/
theorem number_append_closes (cs : List Char) (hrest : Closes rest) :
    number (cs ++ rest) = ⟨.number, (number cs).text, (number cs).rest ++ rest⟩ := by
  unfold number
  rw [takeWhile_append_of_closed cs hrest.takeWhile_isDigit,
    dropWhile_append_of_closed cs hrest.takeWhile_isDigit,
    splitFraction_append_closes _ hrest]
  dsimp only
  rw [splitPower_append_closes _ hrest]

end Piece

/-! ## Literals are cut off whole -/

namespace Literal

variable {negative : Bool} {cs : List Char} {l : Literal}

/-- Digits have no sign. -/
theorem splitSign_of_isDigit {ds : List Char} (h : ds.all isDigit = true) :
    Piece.splitSign ds = ([], ds) := by
  cases ds with
  | nil => rfl
  | cons d ds =>
      rw [List.all_cons, Bool.and_eq_true] at h
      have hplus : d ≠ '+' := ne_of_isDigit h.1 (by decide)
      have hminus : d ≠ '-' := ne_of_isDigit h.1 (by decide)
      simp [Piece.splitSign, hplus, hminus]

/-- A power of ten is taken whole. -/
theorem rest_splitPower {power : Bool × List Char} (h : readPower? cs = some power) :
    (Piece.splitPower cs).2 = [] := by
  have htake : ∀ ds : List Char, ds.all isDigit = true → ds.takeWhile isDigit = ds :=
    fun ds hds => List.takeWhile_eq_self_iff.mpr (List.all_eq_true.mp hds)
  have hdrop : ∀ ds : List Char, ds.all isDigit = true → ds.dropWhile isDigit = [] :=
    fun ds hds => List.dropWhile_eq_nil_iff.mpr (List.all_eq_true.mp hds)
  unfold readPower? at h
  split at h
  · rfl
  · next ds =>
      split at h
      · next hds =>
          simp [Piece.splitPower, Piece.splitSign, htake ds hds.2, hdrop ds hds.2, hds.1]
      · cases h
  · next ds _ =>
      split at h
      · next hds =>
          simp [Piece.splitPower, splitSign_of_isDigit hds.2, htake ds hds.2, hdrop ds hds.2,
            hds.1]
      · cases h
  · cases h

/-- **A literal is cut off whole**, unless it ends in a point. -/
theorem rest_number (h : readUnsigned? negative cs = some l) :
    (Piece.number cs).rest = [] ∨ ∃ rest, (Piece.number cs).rest = '.' :: rest := by
  unfold readUnsigned? at h
  dsimp only at h
  split at h
  · cases h
  · obtain ⟨power, hpower, -⟩ := Option.map_eq_some_iff.mp h
    change (Piece.splitPower (Piece.splitFraction (cs.dropWhile isDigit)).2).2 = [] ∨ ∃ rest,
      (Piece.splitPower (Piece.splitFraction (cs.dropWhile isDigit)).2).2 = '.' :: rest
    generalize cs.dropWhile isDigit = following at hpower ⊢
    cases following with
    | nil => exact .inl rfl
    | cons c following =>
        by_cases hc : c = '.'
        · rw [hc, splitFraction] at hpower
          rw [hc, Piece.splitFraction]
          split
          · exact .inr ⟨following, rfl⟩
          · exact .inl (rest_splitPower hpower)
        · have hplain : splitFraction (c :: following) = ([], c :: following) := by
            simp [splitFraction, hc]
          rw [hplain] at hpower
          rw [Piece.splitFraction_of_ne hc]
          exact .inl (rest_splitPower hpower)

theorem forall_of_readPower? {P : Char → Prop} (hdigit : ∀ c, isDigit c = true → P c)
    (hletter : P 'e') (hminus : P '-') {power : Bool × List Char}
    (h : readPower? cs = some power) : ∀ c ∈ cs, P c := by
  have hall : ∀ ds : List Char, ds.all isDigit = true → ∀ c ∈ ds, P c :=
    fun ds hds c hc => hdigit c (List.all_eq_true.mp hds c hc)
  unfold readPower? at h
  split at h
  · exact List.forall_mem_nil P
  · next ds =>
      split at h
      · next hds =>
          exact List.forall_mem_cons.mpr
            ⟨hletter, List.forall_mem_cons.mpr ⟨hminus, hall ds hds.2⟩⟩
      · cases h
  · next ds _ =>
      split at h
      · next hds => exact List.forall_mem_cons.mpr ⟨hletter, hall ds hds.2⟩
      · cases h
  · cases h

/-- What holds of digits, of the point, of the letter of a power and of a minus holds of the
characters of a literal. -/
theorem forall_of_readUnsigned? {P : Char → Prop} (hdigit : ∀ c, isDigit c = true → P c)
    (hpoint : P '.') (hletter : P 'e') (hminus : P '-')
    (h : readUnsigned? negative cs = some l) : ∀ c ∈ cs, P c := by
  have hrun : ∀ ds : List Char, ∀ c ∈ ds.takeWhile isDigit, P c :=
    fun ds c hc => hdigit c (List.all_eq_true.mp List.all_takeWhile c hc)
  have hpower : ∀ {ds : List Char} {power : Bool × List Char},
      readPower? ds = some power → ∀ c ∈ ds, P c :=
    forall_of_readPower? hdigit hletter hminus
  unfold readUnsigned? at h
  dsimp only at h
  split at h
  · cases h
  · obtain ⟨power, hread, -⟩ := Option.map_eq_some_iff.mp h
    rw [← List.takeWhile_append_dropWhile (p := isDigit) (l := cs)]
    refine List.forall_mem_append.mpr ⟨hrun cs, ?_⟩
    generalize cs.dropWhile isDigit = following at hread ⊢
    unfold splitFraction at hread
    split at hread
    · next following =>
        rw [← List.takeWhile_append_dropWhile (p := isDigit) (l := following)]
        exact List.forall_mem_cons.mpr
          ⟨hpoint, List.forall_mem_append.mpr ⟨hrun following, hpower hread⟩⟩
    · exact hpower hread

theorem readUnsigned?_sign (h : readUnsigned? negative cs = some l) (negative' : Bool) :
    readUnsigned? negative' cs = some { l with negative := negative' } := by
  unfold readUnsigned? at h ⊢
  dsimp only at h ⊢
  split at h
  · cases h
  · next hne =>
      obtain ⟨power, hread, rfl⟩ := Option.map_eq_some_iff.mp h
      rw [if_neg hne, hread]
      rfl

/-- The sign that a literal is read with is its sign. -/
theorem eq_of_readUnsigned? (h : readUnsigned? negative cs = some l) :
    l = { l with negative := negative } := by
  have hsame := readUnsigned?_sign h negative
  rw [h] at hsame
  exact Option.some.inj hsame

/-- A minus makes a literal the negative one. -/
theorem toRat_value_negative (l : Literal) :
    (value { l with negative := true }).toRat = -(value { l with negative := false }).toRat := by
  unfold value
  rw [toRat_ofParts, toRat_ofParts, if_pos rfl, if_neg Bool.false_ne_true, Int.cast_neg, neg_mul]

end Literal

/-! ## Literals as tokens -/

section Tokens

variable {s : Settings} {cs rest : List Char} {negative : Bool} {l : Literal}

theorem Piece.first?_of_isDigit {c : Char} (h : isDigit c = true) :
    first? (c :: cs) = some (number (c :: cs)) := by
  rw [first?, isBlank_of_isDigit h, h]
  rfl

/-- No piece begins with a point. -/
theorem Token.ofCharsAt_point (position : Nat) (ts : List Token) :
    ofCharsAt s position ('.' :: rest) ≠ .ok ts := by
  have hnone : Piece.first? ('.' :: rest) = none := rfl
  intro h
  rw [ofCharsAt, if_neg (List.cons_ne_nil _ _)] at h
  split at h
  · cases h
  · next hsome =>
      rw [hnone] at hsome
      cases hsome

/-- The lexeme of a literal, within the limit on exponents. -/
theorem Literal.lexeme?_eq (h : readUnsigned? negative cs = some l) (position : Nat) :
    Piece.lexeme? s ⟨.number, cs, rest⟩ position =
      let a := value { l with negative := false }
      if s.maxLiteralExponent < a.exponent.natAbs then
        .error (.literalOutOfRange (quoted (String.ofList cs)) position)
      else .ok (some (.number (String.ofList cs) a.normalize)) := by
  have hplain : (cs.filter (· != '+')).map Char.toLower = cs :=
    plain_of_forall (forall_of_readUnsigned?
      (fun c hc => ⟨ne_of_isDigit hc (by decide), toLower_of_isDigit hc⟩)
      (by decide) (by decide) (by decide) h)
  have hvalue : Decimal.ofLiteral? cs = some (value { l with negative := false }) := by
    rw [ofLiteral?, read?_of_readUnsigned? (readUnsigned?_sign h false), Option.map_some]
  unfold Piece.lexeme?
  dsimp only
  rw [hplain, hvalue]

/-- **A literal without its sign is one token**, the normal form of its number, before
whatever closes an operand, if it can be cut into tokens by itself. -/
theorem Literal.lexes_unsigned (h : readUnsigned? negative cs = some l) {start : Nat}
    {ts : List Token} (htokens : Token.ofCharsAt s start cs = .ok ts) (position : Nat)
    (hrest : Closes rest) :
    Token.Lexes s position cs [⟨.number (String.ofList cs)
      (value { l with negative := false }).normalize, position⟩] rest := by
  obtain ⟨c, following, hcs, hdigit⟩ := exists_head_of_readUnsigned? h
  have hfirst : Piece.first? cs = some (Piece.number cs) := by
    rw [hcs]
    exact Piece.first?_of_isDigit hdigit
  have hfirst' : Piece.first? (cs ++ rest) = some (Piece.number (cs ++ rest)) := by
    rw [hcs, List.cons_append]
    exact Piece.first?_of_isDigit hdigit
  rw [Token.ofCharsAt_of_first? hfirst] at htokens
  obtain ⟨lexeme?, hlexeme, htokens⟩ := bind_eq_ok_iff.mp htokens
  obtain ⟨others, hothers, -⟩ := bind_eq_ok_iff.mp htokens
  have hend : (Piece.number cs).rest = [] := by
    rcases rest_number h with hnil | ⟨after, hpoint⟩
    · exact hnil
    · rw [hpoint] at hothers
      exact absurd hothers (Token.ofCharsAt_point _ _)
  have htext : (Piece.number cs).text = cs := by
    have happend := Piece.number_append cs
    rwa [hend, List.append_nil] at happend
  have hwhole : Piece.number (cs ++ rest) = ⟨.number, cs, rest⟩ := by
    rw [Piece.number_append_closes cs hrest, htext, hend, List.nil_append]
  have hlimit : ¬ s.maxLiteralExponent <
      (value { l with negative := false }).exponent.natAbs := by
    intro hlong
    have hpiece : Piece.number cs = ⟨.number, cs, []⟩ := by
      change (⟨.number, (Piece.number cs).text, (Piece.number cs).rest⟩ : Piece) = _
      rw [htext, hend]
    rw [hpiece, lexeme?_eq h] at hlexeme
    dsimp only at hlexeme
    rw [if_pos hlong] at hlexeme
    cases hlexeme
  refine Token.lexes_token (hfirst'.trans (congrArg some hwhole)) ?_
  rw [lexeme?_eq h]
  exact if_neg hlimit

end Tokens

/-- A text is a literal of a number: it is read as the number by itself, and it can be cut
into tokens. -/
structure IsLiteral (s : Settings) (x : String) (a : Decimal) : Prop where
  value : Decimal.ofText x .none = .ok a
  tokens : ∃ ts, Token.ofSource s x = .ok ts

/-- The number of constructs that a literal opens: its minus, if it has one. -/
def Literal.signs (x : String) : Nat := if x.toList.head? = some '-' then 1 else 0

section IsLiteral

variable {s : Settings} {x y : String} {a b : Decimal}

theorem IsLiteral.exists_read? (h : IsLiteral s x a) :
    ∃ l, Literal.read? x.toList = some l ∧ l.value = a := by
  have hvalue := h.value
  unfold Decimal.ofText at hvalue
  dsimp only at hvalue
  split at hvalue
  · next d hd =>
      cases hvalue
      exact Option.map_eq_some_iff.mp hd
  · cases hvalue

/-- **A literal is an operand** of the normal form of its number. -/
theorem IsLiteral.lexes (h : IsLiteral s x a) (position : Nat) {rest : List Char}
    (hrest : Closes rest) :
    ∃ ts, Token.Lexes s position x.toList ts rest ∧
      Phrase.unary.Derives ts (.number a.normalize) (Literal.signs x) := by
  obtain ⟨l, hread, rfl⟩ := h.exists_read?
  obtain ⟨ts, htokens⟩ := h.tokens
  unfold Token.ofSource at htokens
  unfold Literal.signs
  generalize x.toList = cs at hread htokens ⊢
  unfold Literal.read? at hread
  split at hread
  -- the minus is a token of its own, and goes back into the number
  · next cs =>
      have hminus : Token.Lexes s 0 ['-'] [⟨.operator .sub, 0⟩] cs := Token.lexes_minus
      unfold Token.Lexes at hminus
      rw [List.singleton_append] at hminus
      rw [hminus] at htokens
      obtain ⟨ts', hafter⟩ : ∃ ts', Token.ofCharsAt s (0 + ['-'].length) cs = .ok ts' := by
        cases hafter : Token.ofCharsAt s (0 + ['-'].length) cs with
        | error e =>
            rw [hafter] at htokens
            cases htokens
        | ok ts' => exact ⟨ts', rfl⟩
      have hdigits := Literal.lexes_unsigned hread hafter (position + 1) hrest
      have hnegative := Literal.eq_of_readUnsigned? hread
      have hneg : (Literal.value { l with negative := false }).normalize.neg =
          l.value.normalize := by
        apply (normalize_isNormal _).neg.eq_of_toRat_eq l.value.normalize_isNormal
        rw [toRat_neg, toRat_normalize, toRat_normalize, ← Literal.toRat_value_negative,
          ← hnegative]
      have hderives := (Phrase.derives_number (position + 1) (String.ofList cs)
        (Literal.value { l with negative := false }).normalize).minus position
      rw [Tree.negated, hneg] at hderives
      exact ⟨_, Token.lexes_minus.append hdigits, hderives⟩
  · next hminus =>
      have hdigits := Literal.lexes_unsigned hread htokens position hrest
      rw [← Literal.eq_of_readUnsigned? hread] at hdigits
      have hsign : cs.head? ≠ some '-' := by
        intro hhead
        obtain ⟨cs', hcs⟩ := List.head?_eq_some_iff.mp hhead
        exact hminus cs' hcs
      rw [if_neg hsign]
      exact ⟨_, hdigits, Phrase.derives_number position _ _⟩

/-- The characters of a literal are digits, a point, the letter of a power and minus. -/
theorem IsLiteral.forall_of (h : IsLiteral s x a) {P : Char → Prop}
    (hdigit : ∀ c, isDigit c = true → P c) (hpoint : P '.') (hletter : P 'e')
    (hminus : P '-') : ∀ c ∈ x.toList, P c := by
  obtain ⟨l, hread, -⟩ := h.exists_read?
  unfold Literal.read? at hread
  split at hread
  · next cs heq =>
      rw [heq]
      exact List.forall_mem_cons.mpr
        ⟨hminus, Literal.forall_of_readUnsigned? hdigit hpoint hletter hminus hread⟩
  · exact Literal.forall_of_readUnsigned? hdigit hpoint hletter hminus hread

theorem IsLiteral.ne_nil (h : IsLiteral s x a) : x.toList ≠ [] := by
  obtain ⟨l, hread, -⟩ := h.exists_read?
  intro hnil
  rw [hnil] at hread
  cases hread

/-- A literal does not begin with a blank. -/
theorem IsLiteral.takeWhile_isBlank (h : IsLiteral s x a) (rest : List Char) :
    (x.toList ++ rest).takeWhile isBlank = [] := by
  have hblank := h.forall_of (P := fun c => isBlank c = false)
    (fun c hc => isBlank_of_isDigit hc) (by decide) (by decide) (by decide)
  have hne := h.ne_nil
  generalize x.toList = cs at hblank hne
  cases cs with
  | nil => exact absurd rfl hne
  | cons c cs =>
      rw [List.cons_append, List.takeWhile_cons_of_neg]
      rw [hblank c List.mem_cons_self]
      exact Bool.false_ne_true

theorem IsLiteral.balances (h : IsLiteral s x a) : Brackets.Balances x.toList := by
  refine Brackets.balances_of_forall
    (h.forall_of (P := fun c => c ≠ '(' ∧ c ≠ ')') ?_ (by decide) (by decide) (by decide))
  intro c hc
  exact ⟨ne_of_isDigit hc (by decide), ne_of_isDigit hc (by decide)⟩

/-! ## Operations on literals -/

/-- Two literals with an operator between them. -/
def Operator.source (op : Operator) (x y : String) : String := x ++ " " ++ op.name ++ " " ++ y

theorem Operator.toList_source (op : Operator) (x y : String) :
    (op.source x y).toList =
      x.toList ++ ([' '] ++ (op.name.toList ++ ([' '] ++ y.toList))) := by
  simp [source, String.toList_append]

/-- The source of an operation passes the checks, if it is not too long. -/
theorem Operator.checkSource_source {op : Operator} (hop : op ∈ known)
    (hx : IsLiteral s x a) (hy : IsLiteral s y b)
    (hlength : ((op.source x y).length : Int) ≤ s.maxInputLength) :
    checkSource s (op.source x y) = .ok (op.source x y) := by
  have hblank : (op.source x y).toList.all isBlank = false := by
    have hhead := hx.takeWhile_isBlank ([' '] ++ (op.name.toList ++ ([' '] ++ y.toList)))
    rw [← toList_source] at hhead
    rw [← Bool.not_eq_true]
    intro hall
    rw [List.takeWhile_eq_self_iff.mpr (List.all_eq_true.mp hall), toList_source] at hhead
    exact hx.ne_nil (List.append_eq_nil_iff.mp hhead).1
  have hbalances : Brackets.Balances (op.source x y).toList := by
    have hspace : Brackets.Balances [' '] := Brackets.balances_singleton (by decide) (by decide)
    rw [toList_source]
    exact hx.balances.append (hspace.append
      ((Operator.balances_name hop).append (hspace.append hy.balances)))
  unfold checkSource
  rw [if_neg (Int.not_lt.mpr hlength), hblank, Brackets.unpaired?_eq_none hbalances]
  rfl

/-- **An operation on literals** is read as the operation on the normal forms of their
numbers. -/
theorem Tree.ofSource_operation {op : Operator} (hop : op ∈ Operator.known)
    (hx : IsLiteral s x a) (hy : IsLiteral s y b)
    (hlength : ((op.source x y).length : Int) ≤ s.maxInputLength)
    (hdepth : max (Literal.signs x) (Literal.signs y + if op = .pow then 1 else 0) ≤
      s.maxDepth.toNat) :
    ofSource s (op.source x y) =
      .ok (.binary op (.number a.normalize) (.number b.normalize)) := by
  obtain ⟨ts, hleft, hderives⟩ := hx.lexes 0 (.blank (op.name.toList ++ ([' '] ++ y.toList)))
  obtain ⟨ts', hright, hderives'⟩ :=
    hy.lexes (0 + x.toList.length + 1 + op.name.toList.length + 1) .nothing
  have hlexes := Token.Lexes.binary hop (hy.takeWhile_isBlank []) (by simpa using hleft) hright
  obtain ⟨d, htokens, htree, hopened⟩ :=
    hderives.binary (0 + x.toList.length + 1) hop hderives'
  have hcut : Token.ofSource s (op.source x y) = .ok d.tokens := by
    unfold Token.Lexes at hlexes
    rw [List.append_nil, Token.ofCharsAt_nil] at hlexes
    rw [Token.ofSource, Operator.toList_source, hlexes, htokens]
    exact congrArg Except.ok (List.append_nil _)
  rw [ofSource, Operator.checkSource_source hop hx hy hlength]
  change (Token.ofSource s (op.source x y) >>= ofTokens s (op.source x y).length) = _
  rw [hcut]
  change ofTokens s (op.source x y).length d.tokens = _
  rw [ofTokens_tokens, htree, hopened, if_pos hdepth]

end IsLiteral

end DecimalCalc
