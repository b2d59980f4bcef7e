import DecimalCalc.Proofs.Expression.NumberTokens
/-!
# Where tokens lie in the source

A source that can be cut into tokens is a run of blanks, the spelling of a token, blanks
again, and so on to blanks at its end; `Token.Layout` says this piece by piece, along the
cutting.  Measured in places of the source it becomes `Token.Covers`: tokens lie one after
the other, each is spelled at its place, and every other place is blank.

Each token is also cut again as itself before whatever closes an operand
(`Lexeme.Legible`).  A blank does, so the texts of the tokens with blanks between them give
the same lexemes again (`Token.ofCharsAt_texts`), however close they lay in the source.
-/

namespace DecimalCalc

open Text

/-- The spellings of a lexeme: its text, and for powers the circumflex. -/
def Lexeme.SpelledAs (lexeme : Lexeme) (cs : List Char) : Prop :=
  cs = lexeme.text.toList ∨ (lexeme = .operator .pow ∧ cs = ['^'])

/-- A lexeme whose text is cut as the lexeme again, and whose literal denotes its number. -/
structure Lexeme.Legible (s : Settings) (lexeme : Lexeme) : Prop where
  head : ∃ c cs, lexeme.text.toList = c :: cs ∧ isBlank c = false ∧ c ≠ '^'
  lexes : ∀ position {rest : List Char}, Closes rest →
    Token.Lexes s position lexeme.text.toList [⟨lexeme, position⟩] rest
  value : ∀ literal d, lexeme = .number literal d → Literal.Denotes literal.toList d.toRat

/-- How a token is spelled in the source. -/
def Token.spelling (cs : List Char) (t : Token) : List Char :=
  if cs[t.position]? = some '^' then ['^'] else t.lexeme.text.toList

/-- From a place on, the source is covered by tokens and blanks. -/
structure Token.Covers (start : Nat) (cs : List Char) (ts : List Token) : Prop where
  apart : ts.Pairwise fun t u =>
    t.position < u.position ∧ t.position + (t.spelling cs).length ≤ u.position
  spelled : ∀ t ∈ ts, start ≤ t.position ∧ t.spelling cs ≠ [] ∧
    t.lexeme.SpelledAs (t.spelling cs) ∧ t.spelling cs <+: cs.drop t.position
  blank : ∀ i c, start ≤ i → cs[i]? = some c →
    (∀ t ∈ ts, i < t.position ∨ t.position + (t.spelling cs).length ≤ i) → isBlank c = true

theorem Lexeme.SpelledAs.ne_nil {s : Settings} {lexeme : Lexeme} {spelling : List Char}
    (hspelled : lexeme.SpelledAs spelling) (hlegible : lexeme.Legible s) : spelling ≠ [] := by
  rcases hspelled with rfl | ⟨-, rfl⟩
  · obtain ⟨c, cs, htext, -⟩ := hlegible.head
    rw [htext]
    exact List.cons_ne_nil c cs
  · exact List.cons_ne_nil _ _

/-! ## Pieces -/

namespace Piece

variable {s : Settings} {cs : List Char} {p : Piece} {position : Nat}

/-- A piece of each class, by what its text is. -/
inductive Formed : Piece → Prop where
  | blank {text rest : List Char} (hblank : ∀ c ∈ text, isBlank c = true) :
      Formed ⟨.blank, text, rest⟩
  | number {text rest : List Char} {x : ℚ} (hx : Literal.Denotes text x) :
      Formed ⟨.number, text, rest⟩
  | leftParen {rest : List Char} : Formed ⟨.leftParen, ['('], rest⟩
  | rightParen {rest : List Char} : Formed ⟨.rightParen, [')'], rest⟩
  | modulo {rest : List Char} : Formed ⟨.modulo, ['%'], rest⟩
  | operator {op : Operator} {text rest : List Char} (hop : op ∈ Operator.known)
      (hspelled : (Lexeme.operator op).SpelledAs text) : Formed ⟨.operator op, text, rest⟩

/-- Operators are spelled by their names, except for the circumflex. -/
theorem formed_of_operator? (h : operator? cs = some p) : p.Formed := by
  unfold operator? at h
  split at h
  case h_10 =>
      cases h
      exact .operator (by decide) (.inr ⟨rfl, rfl⟩)
  case h_13 => cases h
  all_goals
    cases h
    exact .operator (by decide) (.inl rfl)

theorem formed_of_first? (h : first? cs = some p) : p.Formed := by
  cases cs with
  | nil => cases h
  | cons c cs =>
      rw [first?] at h
      split at h
      · next hc =>
          cases h
          exact .blank (List.forall_mem_cons.mpr ⟨hc, List.all_eq_true.mp List.all_takeWhile⟩)
      split at h
      · next hc =>
          cases h
          obtain ⟨x, hx⟩ := Literal.denotes_number hc cs
          exact .number hx
      split at h
      · cases h
        exact .leftParen
      split at h
      · cases h
        exact .rightParen
      split at h
      · cases h
        exact .modulo
      · exact formed_of_operator? h

theorem legible_operator {op : Operator} (hop : op ∈ Operator.known) :
    (Lexeme.operator op).Legible s where
  head := by
    cases op with
    | unknown name => simp [Operator.known] at hop
    | _ => exact ⟨_, _, rfl, by decide, by decide⟩
  lexes := fun _ _ hrest => Token.lexes_operator hop hrest
  value := nofun

theorem legible_number {text rest : List Char} {x : ℚ} {lexeme : Lexeme}
    (hx : Literal.Denotes text x)
    (h : lexeme? s ⟨.number, text, rest⟩ position = .ok (some lexeme)) :
    lexeme.Legible s ∧ lexeme.text.toList = text := by
  obtain ⟨d, rfl, rfl, hagain⟩ := hx.lexeme_eq h
  obtain ⟨c, following, htext, hdigit⟩ := hx.head
  have hown : (Lexeme.number (String.ofList text) d).text.toList = text := String.toList_ofList
  refine ⟨⟨⟨c, following, hown.trans htext, isBlank_of_isDigit hdigit,
    ne_of_isDigit hdigit (by decide)⟩, ?_, ?_⟩, hown⟩
  · intro position rest hrest
    rw [hown]
    exact hx.lexes hagain position hrest
  · intro literal d' heq
    cases heq
    rwa [String.toList_ofList]

/-- **What a piece contributes**: a run of blanks nothing, and any other piece a legible
lexeme that it spells. -/
theorem lexeme?_cases (hfirst : first? cs = some p) {lexeme? : Option Lexeme}
    (hlexeme : p.lexeme? s position = .ok lexeme?) :
    (lexeme? = none ∧ ∀ c ∈ p.text, isBlank c = true) ∨
      ∃ lexeme, lexeme? = some lexeme ∧ lexeme.Legible s ∧ lexeme.SpelledAs p.text := by
  cases formed_of_first? hfirst with
  | blank hblank =>
      cases hlexeme
      exact .inl ⟨rfl, hblank⟩
  | @number text rest x hx =>
      cases lexeme? with
      | none => exact absurd hlexeme (Literal.lexeme?_ne_none rest position)
      | some lexeme =>
          obtain ⟨hlegible, htext⟩ := legible_number hx hlexeme
          exact .inr ⟨lexeme, rfl, hlegible, .inl htext.symm⟩
  | leftParen =>
      cases hlexeme
      exact .inr ⟨_, rfl, ⟨⟨'(', [], rfl, by decide, by decide⟩,
        fun _ _ _ => Token.lexes_leftParen, nofun⟩, .inl rfl⟩
  | rightParen =>
      cases hlexeme
      exact .inr ⟨_, rfl, ⟨⟨')', [], rfl, by decide, by decide⟩,
        fun _ _ _ => Token.lexes_rightParen, nofun⟩, .inl rfl⟩
  | modulo => cases hlexeme
  | operator hop hspelled =>
      cases hlexeme
      exact .inr ⟨_, rfl, legible_operator hop, hspelled⟩

end Piece

namespace Token

variable {s : Settings} {start : Nat} {cs gap spelling rest : List Char} {ts : List Token}
  {lexeme : Lexeme}

/-! ## Blanks and spellings -/

/-- A text that begins at a place is blanks and spellings of tokens, one after the other. -/
inductive Layout (s : Settings) : Nat → List Char → List Token → Prop where
  | blank {start : Nat} {cs : List Char} (hblank : ∀ c ∈ cs, isBlank c = true) :
      Layout s start cs []
  | token {start : Nat} {gap spelling rest : List Char} {lexeme : Lexeme} {ts : List Token}
      (hgap : ∀ c ∈ gap, isBlank c = true) (hlegible : lexeme.Legible s)
      (hspelled : lexeme.SpelledAs spelling)
      (hrest : Layout s (start + (gap ++ spelling).length) rest ts) :
      Layout s start (gap ++ (spelling ++ rest)) (⟨lexeme, start + gap.length⟩ :: ts)

/-- Blanks in front belong to the blanks of the text behind them. -/
theorem Layout.after_gap (hgap : ∀ c ∈ gap, isBlank c = true)
    (h : Layout s (start + gap.length) cs ts) : Layout s start (gap ++ cs) ts := by
  cases h with
  | blank hblank => exact .blank (List.forall_mem_append.mpr ⟨hgap, hblank⟩)
  | @token _ gap' spelling rest lexeme ts hgap' hlegible hspelled hrest =>
      have hplace : start + gap.length + (gap' ++ spelling).length =
          start + ((gap ++ gap') ++ spelling).length := by
        simp only [List.length_append]
        omega
      rw [hplace] at hrest
      have hboth := Layout.token (List.forall_mem_append.mpr ⟨hgap, hgap'⟩) hlegible hspelled
        hrest
      rwa [List.append_assoc, List.length_append, ← Nat.add_assoc] at hboth

/-- **Cutting lays the source out**, by induction on the pieces. -/
theorem layout_of_ofCharsAt (h : ofCharsAt s start cs = .ok ts) : Layout s start cs ts := by
  fun_induction ofCharsAt s start cs generalizing ts with
  | case1 start =>
      cases h
      exact .blank (List.forall_mem_nil _)
  | case2 start cs hne hnone => cases h
  | case3 start cs hne p hsome ih =>
      obtain ⟨lexeme?, hlexeme, hfollowing⟩ := bind_eq_ok_iff.mp h
      obtain ⟨following, hrest, hresult⟩ := bind_eq_ok_iff.mp hfollowing
      have happend := (Piece.first?_append hsome).1
      have hlayout := ih hrest
      rcases Piece.lexeme?_cases hsome hlexeme with
        ⟨rfl, hblank⟩ | ⟨lexeme, rfl, hlegible, hspelled⟩
      · cases hresult
        rw [← happend]
        exact hlayout.after_gap hblank
      · cases hresult
        have hnogap : ∀ c ∈ [], isBlank c = true := List.forall_mem_nil _
        have htoken := Layout.token hnogap hlegible hspelled hlayout
        rwa [List.nil_append, happend] at htoken

theorem Layout.legible (h : Layout s start cs ts) : ∀ t ∈ ts, t.lexeme.Legible s := by
  induction h with
  | blank => exact List.forall_mem_nil _
  | token _ hlegible _ _ ih => exact List.forall_mem_cons.mpr ⟨hlegible, ih⟩

/-! ## Places -/

/-- At its place a token is spelled as it was laid out. -/
theorem spelling_eq (hlegible : lexeme.Legible s) (hspelled : lexeme.SpelledAs spelling)
    (front rest : List Char) :
    Token.spelling (front ++ (spelling ++ rest)) ⟨lexeme, front.length⟩ = spelling := by
  unfold Token.spelling
  rcases hspelled with rfl | ⟨rfl, rfl⟩
  · obtain ⟨c, cs, htext, -, hc⟩ := hlegible.head
    rw [htext]
    simp [hc]
  · simp

/-- **A text that is laid out is covered**, by induction on the layout.  What stands in front
of the text says where it begins. -/
theorem Layout.covers (h : Layout s start cs ts) :
    ∀ front : List Char, front.length = start → Covers start (front ++ cs) ts := by
  induction h with
  | @blank start cs hblank =>
      rintro front rfl
      refine ⟨.nil, List.forall_mem_nil _, ?_⟩
      intro i c hi hc _
      rw [List.getElem?_append_right hi] at hc
      exact hblank c (List.mem_of_getElem? hc)
  | @token start gap spelling rest lexeme ts hgap hlegible hspelled hrest ih =>
      rintro front rfl
      have hplace : (front ++ (gap ++ spelling)).length =
          front.length + (gap ++ spelling).length := List.length_append
      have hwhole : front ++ (gap ++ (spelling ++ rest)) =
          front ++ (gap ++ spelling) ++ rest := by
        simp only [List.append_assoc]
      have hown : Token.spelling (front ++ (gap ++ (spelling ++ rest)))
          ⟨lexeme, front.length + gap.length⟩ = spelling := by
        have hat := spelling_eq hlegible hspelled (front ++ gap) rest
        rwa [List.length_append, List.append_assoc] at hat
      have hlength : 0 < spelling.length :=
        List.length_pos_iff.mpr (hspelled.ne_nil hlegible)
      have hbehind := ih _ hplace
      rw [← hwhole] at hbehind
      rw [List.length_append] at hbehind
      refine ⟨?_, ?_, ?_⟩
      · refine List.pairwise_cons.mpr ⟨?_, hbehind.apart⟩
        intro u hu
        have hlow := (hbehind.spelled u hu).1
        rw [hown]
        dsimp only
        omega
      · refine List.forall_mem_cons.mpr ⟨?_, ?_⟩
        · rw [hown]
          refine ⟨Nat.le_add_right _ _, List.length_pos_iff.mp hlength, hspelled, rest, ?_⟩
          rw [← List.append_assoc, ← List.length_append, List.drop_left]
        · intro u hu
          obtain ⟨hlow, hspells⟩ := hbehind.spelled u hu
          exact ⟨by omega, hspells⟩
      · intro i c hi hc hnone
        obtain ⟨hhere, hlater⟩ := List.forall_mem_cons.mp hnone
        rw [hown] at hhere
        dsimp only at hhere
        by_cases hgapped : i < front.length + gap.length
        · rw [List.getElem?_append_right hi, List.getElem?_append_left (by omega)] at hc
          exact hgap c (List.mem_of_getElem? hc)
        · exact hbehind.blank i c (by omega) hc hlater

/-- A token is found by its position. -/
theorem Covers.index_eq (h : Covers start cs ts) {i j : Nat} {t u : Token}
    (hi : ts[i]? = some t) (hj : ts[j]? = some u) (hposition : t.position = u.position) :
    i = j := by
  have hapart := List.pairwise_iff_getElem.mp h.apart
  obtain ⟨hilt, rfl⟩ := List.getElem?_eq_some_iff.mp hi
  obtain ⟨hjlt, rfl⟩ := List.getElem?_eq_some_iff.mp hj
  rcases Nat.lt_trichotomy i j with hlt | rfl | hlt
  · have hlow := (hapart i j hilt hjlt hlt).1
    omega
  · rfl
  · have hlow := (hapart j i hjlt hilt hlt).1
    omega

/-! ## Blanks between all tokens -/

/-- A joined text begins with the first of its parts. -/
theorem exists_intercalate_cons (separator first : List Char) (others : List (List Char)) :
    ∃ rest, separator.intercalate (first :: others) = first ++ rest := by
  cases others with
  | nil => exact ⟨[], by simp⟩
  | cons second others =>
      refine ⟨separator ++ separator.intercalate (second :: others), ?_⟩
      rw [List.intercalate_cons_cons, List.append_assoc]

/-- **The texts of legible lexemes with blanks between them** give the lexemes again, by
induction on the lexemes. -/
theorem ofCharsAt_texts {lexemes : List Lexeme} (h : ∀ l ∈ lexemes, l.Legible s)
    (start : Nat) :
    ∃ ts, ofCharsAt s start ([' '].intercalate (lexemes.map (·.text.toList))) = .ok ts ∧
      ts.map (·.lexeme) = lexemes := by
  induction lexemes generalizing start with
  | nil => exact ⟨[], ofCharsAt_nil, rfl⟩
  | cons first others ih =>
      obtain ⟨hfirst, hothers⟩ := List.forall_mem_cons.mp h
      cases others with
      | nil =>
          have hlexes := hfirst.lexes start .nothing
          unfold Lexes at hlexes
          rw [List.append_nil, ofCharsAt_nil] at hlexes
          refine ⟨[⟨first, start⟩], ?_, rfl⟩
          rw [List.map_singleton, List.intercalate_singleton, hlexes]
          rfl
      | cons second others =>
          obtain ⟨c, cs, htext, hblank, -⟩ := (hothers second List.mem_cons_self).head
          obtain ⟨rest, hjoined⟩ :=
            exists_intercalate_cons [' '] second.text.toList (others.map (·.text.toList))
          have hspace : ([' '].intercalate ((second :: others).map (·.text.toList))).takeWhile
              isBlank = [] := by
            rw [List.map_cons, hjoined, htext, List.cons_append, List.takeWhile_cons_of_neg]
            rw [hblank]
            exact Bool.false_ne_true
          have hlexes := (hfirst.lexes start (.blank _)).append (lexes_blank hspace)
          obtain ⟨ts, hts, hmap⟩ := ih hothers (start + (first.text.toList ++ [' ']).length)
          unfold Lexes at hlexes
          rw [hts] at hlexes
          refine ⟨⟨first, start⟩ :: ts, ?_, congrArg (first :: ·) hmap⟩
          rw [List.map_cons, List.map_cons, List.intercalate_cons_cons]
          exact hlexes

/-! ## The tokens of a source -/

/-- **The tokens of a source** cover it without overlapping, and every other character is a
blank.  A number token carries the normal form of the number that its literal denotes, which
has no power of ten above the zeroth and none below the limit on exponents.  The texts of the
tokens, with single blanks between them, are cut into the same lexemes. -/
theorem ofSource_covers {source : String} (h : ofSource s source = .ok ts) :
    Covers 0 source.toList ts ∧
      (∀ t ∈ ts, ∀ literal d, t.lexeme = .number literal d →
        Literal.Denotes literal.toList d.toRat ∧ d.IsNormal ∧
          -s.maxLiteralExponent ≤ d.exponent ∧ d.exponent ≤ 0) ∧
      ∃ ts', ofSource s (" ".intercalate (ts.map (·.lexeme.text))) = .ok ts' ∧
        ts'.map (·.lexeme) = ts.map (·.lexeme) := by
  have hlayout := layout_of_ofCharsAt h
  have hnormal := normal_of_ofCharsAt h
  refine ⟨hlayout.covers [] rfl, ?_, ?_⟩
  · intro t ht literal d hnumber
    have hvalue := (hlayout.legible t ht).value literal d hnumber
    have hform := hnormal t ht
    rw [hnumber] at hform
    obtain ⟨hd, hlimit⟩ := hform
    have hexponent := hd.exponent_le
    exact ⟨hvalue, hd, by omega, hexponent⟩
  · have hlegible : ∀ l ∈ ts.map (·.lexeme), l.Legible s :=
      List.forall_mem_map.mpr hlayout.legible
    obtain ⟨ts', hts', hmap⟩ := ofCharsAt_texts hlegible 0
    refine ⟨ts', ?_, hmap⟩
    rw [ofSource, String.toList_intercalate, List.map_map]
    rw [List.map_map] at hts'
    exact hts'

theorem ofSource_covers_power :
    let ts : List Token :=
      [⟨.number "2" ⟨2, 0⟩, 1⟩, ⟨.operator .pow, 2⟩, ⟨.number "1.50E-1" ⟨15, -2⟩, 4⟩]
    ofSource {} " 2^ 1.50E-1" = .ok ts ∧ Covers 0 " 2^ 1.50E-1".toList ts ∧
      Literal.Denotes "1.50E-1".toList (⟨15, -2⟩ : Decimal).toRat ∧
      ∃ ts', ofSource {} "2 ** 1.50E-1" = .ok ts' ∧
        ts'.map (·.lexeme) = ts.map (·.lexeme) := by
  intro ts
  have hcut : ofSource {} " 2^ 1.50E-1" = .ok ts := by decide +kernel
  have hjoined : " ".intercalate (ts.map (·.lexeme.text)) = "2 ** 1.50E-1" := by
    decide +kernel
  obtain ⟨hcovers, hnumbers, hagain⟩ := ofSource_covers hcut
  have hlast : (⟨.number "1.50E-1" ⟨15, -2⟩, 4⟩ : Token) ∈ ts := by decide
  rw [hjoined] at hagain
  exact ⟨hcut, hcovers, (hnumbers _ hlast _ _ rfl).1, hagain⟩

end Token

end DecimalCalc
