import DecimalCalc.Proofs.Expression.BracketPartners
import DecimalCalc.Proofs.Expression.UncheckedReading
import DecimalCalc.Proofs.Expression.ViablePrefix
import DecimalCalc.Proofs.Numeral.RadixReading
/-!
# What is wrong with a source

A source has a tree, or an error that says why it has none: `Tree.ofSource_refusal`.  It is
refused by a check, or where cutting it into tokens gets no further, or where the parser stops
(`Tree.Refusal`).

Cutting gets as far as each piece in turn is a blank or has a lexeme (`Token.Reaches`), so where
it is blocked (`Token.Blocked`) the rest of the text is what stands at the place in the error.
A number blocks it only by an exponent beyond the limit: whatever is cut off as a number is a
literal, and its digits, however many, are read in pieces as the number that they stand for
(`Literal.ReadsInPieces`).
-/

namespace DecimalCalc

open Text Numeral Grammar

/-! ## Literals of any length -/

section Digits

variable {cs : List Char}

theorem isRadixDigit_of_isDigit (h : ∀ c ∈ cs, isDigit c = true) :
    ∀ c ∈ cs, IsRadixDigit 10 c := by
  intro c hc
  rw [IsRadixDigit, radixDigit?_of_isDigit (h c hc)]
  exact h c hc

theorem radixValue_of_isDigit (h : ∀ c ∈ cs, isDigit c = true) :
    radixValue 10 cs = Literal.digitsValue cs := by
  have hvalues : cs.filterMap (radixDigit? 10) = cs.filterMap digitValue? :=
    List.filterMap_congr fun c hc => radixDigit?_of_isDigit (h c hc)
  rw [radixValue, hvalues, Literal.digitsValue]

end Digits

namespace Literal

variable {cs : List Char} {l : Literal} {negative : Bool}

/-- The digits of the power of ten of a literal; a zero where none is written. -/
def powerDigits (l : Literal) : List Char := if l.power = [] then ['0'] else l.power

/-- The number of a literal, from two integers that are read in pieces. -/
def valueInPieces? (l : Literal) : Option Decimal := do
  let n ← readLongInteger? 10 ((if l.negative then ['-'] else []) ++ (l.whole ++ l.fraction))
  let p ← readLongInteger? 10 ((if l.powerNegative then ['-'] else []) ++ l.powerDigits)
  return Decimal.ofParts n (p - l.fraction.length)

/-- A literal has its number in pieces too, and each of them is within the limit on numerals. -/
structure ReadsInPieces (l : Literal) : Prop where
  short : ∀ part ∈ pieces (l.whole ++ l.fraction) ++ pieces l.powerDigits,
    part.length ≤ Fault.longestNumeral
  value : l.valueInPieces? = some l.value

/-- What the parts of a literal are made of. -/
structure HasDigits (l : Literal) : Prop where
  ne_nil : l.whole ≠ []
  whole : ∀ c ∈ l.whole, isDigit c = true
  fraction : ∀ c ∈ l.fraction, isDigit c = true
  power : ∀ c ∈ l.power, isDigit c = true

theorem isDigit_of_readPower? {power : Bool × List Char} (h : readPower? cs = some power) :
    ∀ c ∈ power.2, isDigit c = true := by
  unfold readPower? at h
  split at h
  · cases h
    exact List.forall_mem_nil _
  · split at h
    · next hds =>
        cases h
        exact List.all_eq_true.mp hds.2
    · cases h
  · split at h
    · next hds =>
        cases h
        exact List.all_eq_true.mp hds.2
    · cases h
  · cases h

theorem isDigit_of_splitFraction (cs : List Char) :
    ∀ c ∈ (splitFraction cs).1, isDigit c = true := by
  unfold splitFraction
  split
  · exact List.all_eq_true.mp List.all_takeWhile
  · exact List.forall_mem_nil _

theorem hasDigits_of_readUnsigned? (h : readUnsigned? negative cs = some l) : l.HasDigits := by
  unfold readUnsigned? at h
  dsimp only at h
  split at h
  · cases h
  · next hne =>
      obtain ⟨power, hpower, rfl⟩ := Option.map_eq_some_iff.mp h
      exact ⟨hne, List.all_eq_true.mp List.all_takeWhile, isDigit_of_splitFraction _,
        isDigit_of_readPower? hpower⟩

theorem hasDigits_of_read? (h : read? cs = some l) : l.HasDigits := by
  unfold read? at h
  split at h
  · exact hasDigits_of_readUnsigned? h
  · exact hasDigits_of_readUnsigned? h

/-- **A literal is read in pieces** as the number that it stands for. -/
theorem HasDigits.readsInPieces (h : l.HasDigits) : l.ReadsInPieces where
  short := by
    have hlimit : pieceLength ≤ Fault.longestNumeral := by decide
    intro part hpart
    rcases List.mem_append.mp hpart with hcoefficient | hpower
    · exact (length_le_of_mem_pieces hcoefficient).trans hlimit
    · exact (length_le_of_mem_pieces hpower).trans hlimit
  value := by
    have hcoefficient : ∀ c ∈ l.whole ++ l.fraction, isDigit c = true :=
      List.forall_mem_append.mpr ⟨h.whole, h.fraction⟩
    have hne : l.whole ++ l.fraction ≠ [] := List.append_ne_nil_of_left_ne_nil h.ne_nil _
    obtain ⟨hpowerne, hpower, hvalue⟩ : l.powerDigits ≠ [] ∧
        (∀ c ∈ l.powerDigits, isDigit c = true) ∧
        digitsValue l.powerDigits = digitsValue l.power := by
      unfold powerDigits
      split
      · next hnil =>
          rw [hnil]
          exact ⟨List.cons_ne_nil _ _, List.forall_mem_singleton.mpr rfl, rfl⟩
      · next hpowerne => exact ⟨hpowerne, h.power, rfl⟩
    rw [valueInPieces?, readLongInteger?_of_digits hne (isRadixDigit_of_isDigit hcoefficient),
      readLongInteger?_of_digits hpowerne (isRadixDigit_of_isDigit hpower),
      radixValue_of_isDigit hcoefficient, radixValue_of_isDigit hpower, hvalue]
    rfl

/-- **Whatever is cut off as a number is a literal**, however long it is. -/
theorem exists_read?_of_first? {p : Piece} (h : Piece.first? cs = some p)
    (hnumber : p.kind = .number) :
    ∃ l, read? (plain p.text) = some l ∧ l.ReadsInPieces := by
  cases Piece.formed_of_first? h with
  | number hx =>
      obtain ⟨d, hd, -⟩ := hx.ofLiteral?_eq
      obtain ⟨l, hl, -⟩ := Option.map_eq_some_iff.mp hd
      exact ⟨l, hl, (hasDigits_of_read? hl).readsInPieces⟩
  | blank | leftParen | rightParen | modulo | operator => cases hnumber

end Literal

/-! ## Stray text -/

namespace Piece

variable {cs : List Char}

/-- A text in which no piece begins, up to the end or to a rest with which one does. -/
structure Strays (text rest : List Char) : Prop where
  ne_nil : text ≠ []
  nowhere : ∀ k < text.length, first? ((text ++ rest).drop k) = none
  ends : rest = [] ∨ (first? rest).isSome = true

/-- Where stray text ends, by induction on the text. -/
theorem exists_stray (cs : List Char) :
    ∃ rest, cs = stray cs ++ rest ∧ (rest = [] ∨ (first? rest).isSome = true) ∧
      ∀ k < (stray cs).length, first? (cs.drop k) = none := by
  induction cs with
  | nil => exact ⟨[], rfl, .inl rfl, nofun⟩
  | cons c cs ih =>
      rw [stray]
      split
      · next hbegins => exact ⟨c :: cs, rfl, .inr hbegins, nofun⟩
      · next hnone =>
          obtain ⟨rest, hrest, hends, hnowhere⟩ := ih
          refine ⟨rest, congrArg (c :: ·) hrest, hends, ?_⟩
          intro k hk
          cases k with
          | zero => exact Option.not_isSome_iff_eq_none.mp hnone
          | succ k => exact hnowhere k (Nat.lt_of_succ_lt_succ hk)

theorem exists_strays (hne : cs ≠ []) (hnone : first? cs = none) :
    ∃ rest, cs = stray cs ++ rest ∧ Strays (stray cs) rest := by
  obtain ⟨rest, hrest, hends, hnowhere⟩ := exists_stray cs
  refine ⟨rest, hrest, ?_, by rwa [← hrest], hends⟩
  obtain ⟨c, following, rfl⟩ := List.exists_cons_of_ne_nil hne
  rw [stray, hnone]
  exact List.cons_ne_nil _ _

end Piece

/-! ## Where cutting ends -/

namespace Token

variable {s : Settings} {start place : Nat} {cs rest : List Char} {e : Error}

/-- Cutting a text that begins at one place comes to a rest that begins at another: each piece
before it is a blank or has a lexeme. -/
inductive Reaches (s : Settings) : Nat → List Char → Nat → List Char → Prop where
  | here {place : Nat} {cs : List Char} : Reaches s place cs place cs
  | piece {start place : Nat} {cs rest : List Char} {p : Piece} {lexeme? : Option Lexeme}
      (hfirst : Piece.first? cs = some p) (hlexeme : p.lexeme? s start = .ok lexeme?)
      (hrest : Reaches s (start + p.text.length) p.rest place rest) : Reaches s start cs place rest

/-- Why nothing can be cut off the front of a text, and the error that says so. -/
inductive Blocked (s : Settings) (place : Nat) : List Char → Error → Prop where
  | stray {text rest : List Char} (h : Piece.Strays text rest) :
      Blocked s place (text ++ rest) (.unexpectedToken (String.ofList text) place)
  | modulo {rest : List Char} : Blocked s place ('%' :: rest) (.moduloOperator place)
  | range {text rest : List Char} {d : Decimal}
      (hfirst : Piece.first? (text ++ rest) = some ⟨.number, text, rest⟩)
      (hd : Decimal.ofLiteral? (Literal.plain text) = some d)
      (hlarge : s.maxLiteralExponent < d.exponent.natAbs) :
      Blocked s place (text ++ rest) (.literalOutOfRange (quoted (String.ofList text)) place)

/-- The rest is what stands at its place, by induction on the pieces before it. -/
theorem Reaches.exists_front (h : Reaches s start cs place rest) :
    ∃ front, cs = front ++ rest ∧ place = start + front.length := by
  induction h with
  | here => exact ⟨[], rfl, rfl⟩
  | @piece start place cs rest p lexeme? hfirst hlexeme hrest ih =>
      obtain ⟨front, hfront, hplace⟩ := ih
      refine ⟨p.text ++ front, ?_, ?_⟩
      · rw [List.append_assoc, ← hfront, (Piece.first?_append hfirst).1]
      · rw [hplace, List.length_append, Nat.add_assoc]

theorem Reaches.drop_eq (h : Reaches s 0 cs place rest) : cs.drop place = rest := by
  obtain ⟨front, rfl, rfl⟩ := h.exists_front
  rw [Nat.zero_add, List.drop_left]

/-- A piece without a lexeme is the modulo sign or a number with too large an exponent. -/
theorem blocked_of_lexeme? {p : Piece} (hfirst : Piece.first? cs = some p)
    (h : p.lexeme? s place = .error e) : Blocked s place cs e := by
  have happend := (Piece.first?_append hfirst).1
  cases Piece.formed_of_first? hfirst with
  | @number text rest x hx =>
      -- the literal is read, so only its exponent can stand in the way
      obtain ⟨d, hd, -⟩ := hx.ofLiteral?_eq
      have hplain : (text.filter (· != '+')).map Char.toLower = Literal.plain text := rfl
      unfold Piece.lexeme? at h
      dsimp only at h happend
      rw [hplain, hd] at h
      dsimp only at h
      split at h
      · next hlarge =>
          cases h
          subst happend
          exact .range hfirst hd hlarge
      · cases h
  | modulo =>
      cases h
      subst happend
      exact .modulo
  | blank | leftParen | rightParen | operator => cases h

/-- **Cutting fails where it is blocked**, by induction on the pieces. -/
theorem exists_blocked (h : ofCharsAt s start cs = .error e) :
    ∃ place rest, Reaches s start cs place rest ∧ Blocked s place rest e := by
  fun_induction ofCharsAt s start cs with
  | case1 start => cases h
  | case2 start cs hne hnone =>
      cases h
      obtain ⟨rest, hrest, hstrays⟩ := Piece.exists_strays hne hnone
      refine ⟨start, cs, .here, ?_⟩
      -- the text is split, and the error still names the stray text of the whole
      nth_rewrite 1 [hrest]
      exact .stray hstrays
  | case3 start cs hne p hsome ih =>
      rcases bind_eq_error_iff.mp h with hlexeme | ⟨lexeme?, hlexeme, hfollowing⟩
      · exact ⟨start, cs, .here, blocked_of_lexeme? hsome hlexeme⟩
      rcases bind_eq_error_iff.mp hfollowing with hrest | ⟨following, -, hresult⟩
      · obtain ⟨place, rest, hreaches, hblocked⟩ := ih hrest
        exact ⟨place, rest, .piece hsome hlexeme hreaches, hblocked⟩
      · cases lexeme? with
        | none => cases hresult
        | some lexeme => cases hresult

end Token

/-! ## Refusals -/

namespace Tree

variable {s : Settings} {source text : String} {place : Nat} {e : Error} {ts : List Token}

/-- Why a source has no tree, and the error that says so. -/
inductive Refusal (s : Settings) (source : String) : Error → Prop where
  | tooLong (h : s.maxInputLength < source.length) :
      Refusal s source (.sourceTooLong s.maxInputLength)
  | blank (h : ∀ c ∈ source.toList, isBlank c = true) : Refusal s source .emptyExpression
  | unbalanced {place : Nat} (h : IsLeast {k | Brackets.Unpaired source.toList k} place) :
      Refusal s source (.unbalanced place)
  | uncut {place : Nat} {rest : List Char} {e : Error}
      (hreaches : Token.Reaches s 0 source.toList place rest) (h : Token.Blocked s place rest e) :
      Refusal s source e
  | tooDeep {ts : List Token} (hts : Token.ofSource s source = .ok ts)
      (hdeep : ∀ d : Sentence, d.tokens = ts → s.maxDepth.toNat < d.opened) :
      Refusal s source (.tooDeep s.maxDepth)
  | ended {ts : List Token} {t : Token} (hts : Token.ofSource s source = .ok ts)
      (hlast : ts.getLast? = some t) (hviable : Viable ts)
      (hnone : ∀ d : Sentence, d.tokens ≠ ts) :
      Refusal s source (.unexpectedEnd t.lexeme.text source.length)
  | refused {ts : List Token} {i : Nat} {t : Token} (hts : Token.ofSource s source = .ok ts)
      (hi : ts[i]? = some t) (hviable : Viable (ts.take i))
      (hearliest : ¬ Viable (ts.take (i + 1))) :
      Refusal s source (.unexpectedToken t.lexeme.text t.position)

/-- A text stands at a place of a source; that of powers may be spelled with a circumflex. -/
def StandsAt (source text : String) (place : Nat) : Prop :=
  ∃ spelling : List Char, spelling ≠ [] ∧ spelling <+: source.toList.drop place ∧
    (spelling = text.toList ∨ text = Operator.pow.name ∧ spelling = ['^'])

/-- What an error tells about its source: a kind, a code, and a place at which the offending
text stands. -/
structure Reports (source : String) (e : Error) : Prop where
  kind : (.parse ∈ e.kind.lineage ∨ .validation ∈ e.kind.lineage) ∧
    .construction ∉ e.kind.lineage
  code : e.code ∈ ["TOO_LONG", "EMPTY_EXPRESSION", "UNBALANCED_PARENS", "UNEXPECTED_TOKEN",
    "UNEXPECTED_END", "UNSUPPORTED_OPERATOR", "EXPONENT_TOO_LARGE", "TOO_COMPLEX"]
  place : ∀ place, e.position? = some place → place ≤ source.length
  token : e.code = "UNEXPECTED_TOKEN" →
    ∃ text place, e = .unexpectedToken text place ∧ StandsAt source text place
  modulo : e.code = "UNSUPPORTED_OPERATOR" →
    ∃ place, e = .moduloOperator place ∧ StandsAt source "%" place

theorem StandsAt.lt_length (h : StandsAt source text place) : place < source.length := by
  obtain ⟨spelling, hne, hprefix, -⟩ := h
  have hlength := hprefix.length_le
  have hpos := List.length_pos_iff.mpr hne
  rw [List.length_drop, String.length_toList] at hlength
  omega

/-! ## Every error is a refusal -/

theorem refusal_of_checkSource (h : checkSource s source = .error e) : Refusal s source e := by
  unfold checkSource at h
  split at h
  · next hlong =>
      cases h
      exact .tooLong hlong
  split at h
  · next hblank =>
      cases h
      exact .blank (List.all_eq_true.mp hblank)
  split at h
  · next place hplace =>
      cases h
      have hended := Brackets.ended_unpaired? source
      rw [hplace] at hended
      exact .unbalanced hended.isLeast
  · cases h

theorem eq_nil_of_emptyExpression {length : Nat}
    (h : ofTokens s length ts = .error .emptyExpression) : ts = [] := by
  unfold ofTokens at h
  split at h
  · assumption
  · dsimp only at h
    split at h <;> cases h

theorem refusal_of_ofTokens (hts : Token.ofSource s source = .ok ts)
    (h : ofTokens s source.length ts = .error e) : Refusal s source e := by
  obtain rfl | rfl | ⟨t, hlast, rfl, hstuck⟩ | ⟨t, rest, hstops, rfl⟩ := stop_of_ofTokens h
  · -- without tokens every place of the source is blank
    obtain rfl := eq_nil_of_emptyExpression h
    refine .blank fun c hc => ?_
    obtain ⟨i, hi⟩ := List.mem_iff_getElem?.mp hc
    have hcovers := (Token.layout_of_ofCharsAt hts).covers [] rfl
    exact hcovers.blank i c (Nat.zero_le i) hi (List.forall_mem_nil _)
  · refine .tooDeep hts fun d hd => ?_
    subst hd
    by_contra hopened
    rw [ofTokens_tokens, if_pos (Nat.not_lt.mp hopened)] at h
    cases h
  · obtain ⟨hviable, hnone⟩ := viable_of_unexpectedEnd hstuck
    exact .ended hts hlast hviable hnone
  · obtain ⟨i, hi, hviable, hearliest⟩ := hstops.exists_earliest
    exact .refused hts hi hviable hearliest

/-- **Every error is a refusal.** -/
theorem refusal_of_ofSource (h : ofSource s source = .error e) : Refusal s source e := by
  rcases bind_eq_error_iff.mp h with hcheck | ⟨checked, hchecked, hunchecked⟩
  · exact refusal_of_checkSource hcheck
  obtain rfl := eq_of_checkSource hchecked
  rcases bind_eq_error_iff.mp hunchecked with hcut | ⟨ts, hts, hparse⟩
  · obtain ⟨place, rest, hreaches, hblocked⟩ := Token.exists_blocked hcut
    exact .uncut hreaches hblocked
  · exact refusal_of_ofTokens hts hparse

/-! ## What a refusal tells -/

/-- What begins the rest of a cut stands at its place. -/
theorem standsAt_of_reaches {text rest : List Char} (hne : text ≠ [])
    (h : Token.Reaches s 0 source.toList place (text ++ rest)) :
    StandsAt source (String.ofList text) place := by
  refine ⟨text, hne, ?_, .inl String.toList_ofList.symm⟩
  rw [h.drop_eq]
  exact List.prefix_append text rest

/-- A token of a source stands at its position. -/
theorem standsAt_of_token {t : Token} (hts : Token.ofSource s source = .ok ts) (ht : t ∈ ts) :
    StandsAt source t.lexeme.text t.position := by
  have hcovers := (Token.layout_of_ofCharsAt hts).covers [] rfl
  obtain ⟨-, hne, hspelled, hprefix⟩ := hcovers.spelled t ht
  refine ⟨_, hne, hprefix, ?_⟩
  rcases hspelled with htext | ⟨hpow, hcircumflex⟩
  · exact .inl htext
  · exact .inr ⟨by rw [hpow]; rfl, hcircumflex⟩

/-- The text of an unexpected token stands at its place. -/
theorem Refusal.token (h : Refusal s source (.unexpectedToken text place)) :
    StandsAt source text place := by
  cases h with
  | uncut hreaches hblocked =>
      cases hblocked with
      | stray hstrays => exact standsAt_of_reaches hstrays.ne_nil hreaches
  | refused hts hi => exact standsAt_of_token hts (List.mem_of_getElem? hi)

/-- So does the modulo sign. -/
theorem Refusal.modulo (h : Refusal s source (.moduloOperator place)) :
    StandsAt source "%" place := by
  cases h with
  | uncut hreaches hblocked =>
      cases hblocked with
      | modulo =>
          have hstands : StandsAt source (String.ofList ['%']) place :=
            standsAt_of_reaches (List.cons_ne_nil _ _) hreaches
          exact hstands

theorem Refusal.lt_length_of_unbalanced (h : Refusal s source (.unbalanced place)) :
    place < source.length := by
  cases h with
  | unbalanced hleast =>
      rw [← String.length_toList]
      obtain hopen | hclose := hleast.1.1
      · exact (List.getElem?_eq_some_iff.mp hopen).1
      · exact (List.getElem?_eq_some_iff.mp hclose).1
  | uncut _ hblocked => cases hblocked

theorem Refusal.eq_length_of_ended (h : Refusal s source (.unexpectedEnd text place)) :
    place = source.length := by
  cases h with
  | ended => rfl
  | uncut _ hblocked => cases hblocked

/-- **The place in an error is one of the source**, or its end. -/
theorem Refusal.place_le (h : Refusal s source e) (hplace : e.position? = some place) :
    place ≤ source.length := by
  cases e with
  | unbalanced _ =>
      cases hplace
      exact h.lt_length_of_unbalanced.le
  | unexpectedToken _ _ =>
      cases hplace
      exact h.token.lt_length.le
  | unexpectedEnd _ _ =>
      cases hplace
      exact h.eq_length_of_ended.le
  | moduloOperator _ =>
      cases hplace
      exact h.modulo.lt_length.le
  | _ => cases hplace

/-- **An error tells what is wrong with its source, and where.** -/
theorem Refusal.reports (h : Refusal s source e) : Reports source e where
  kind := by
    cases h with
    | uncut _ hblocked => cases hblocked <;> simp [Error.kind, ErrorKind.lineage]
    | _ => simp [Error.kind, ErrorKind.lineage]
  code := by
    cases h with
    | uncut _ hblocked => cases hblocked <;> simp [Error.code]
    | _ => simp [Error.code]
  place := fun _ hplace => h.place_le hplace
  token := by
    intro hcode
    cases e with
    | unexpectedToken text place => exact ⟨text, place, rfl, h.token⟩
    | _ => simp [Error.code] at hcode
  modulo := by
    intro hcode
    cases e with
    | moduloOperator place => exact ⟨place, rfl, h.modulo⟩
    | _ => simp [Error.code] at hcode

/-- **Every source has a tree, or an error that says why it has none.**  The error is one of
syntax or of validation, and never one of a number that cannot be read: what is cut off as a
number is a literal, however many digits it has and of whatever script they are. -/
theorem ofSource_refusal (s : Settings) (source : String) :
    ((∃ tree, ofSource s source = .ok tree) ∨
      ∃ e, ofSource s source = .error e ∧ Refusal s source e ∧ Reports source e) ∧
    ∀ cs p, Piece.first? cs = some p → p.kind = .number →
      ∃ l, Literal.read? (Literal.plain p.text) = some l ∧ l.ReadsInPieces := by
  refine ⟨?_, fun cs p hfirst hnumber => Literal.exists_read?_of_first? hfirst hnumber⟩
  cases hsource : ofSource s source with
  | ok tree => exact .inl ⟨tree, rfl⟩
  | error e =>
      have hrefusal := refusal_of_ofSource hsource
      exact .inr ⟨e, rfl, hrefusal, hrefusal.reports⟩

/-- Powers have one text in errors, also where they are spelled with a circumflex. -/
example : ofSource {} "2 ^ ^ 3" = .error (.unexpectedToken "**" 4) := by decide +kernel

end Tree

end DecimalCalc
