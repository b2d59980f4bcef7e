import DecimalCalc.Proofs.Expression.BracketPartners
import DecimalCalc.Proofs.Expression.Lexing
import DecimalCalc.Proofs.Expression.Reading
/-!
# Reading without the checks

Before a source is cut into tokens it is checked: its length, that it is not blank, and
its parentheses.  But for the length the checks refuse nothing that has a tree
(`Tree.ofSource_ok_iff_ofUnchecked`), so they only decide which error is named first.

The check of the parentheses looks at characters and the grammar at tokens.  Both see the
same parentheses in the same order (`Token.filter_of_ofCharsAt`), those of a derivation are
balanced (`Derivation.balances`), and what stands between parentheses does not matter for
their balance (`unpairedFrom?_filter`).
-/

namespace DecimalCalc

open Text Grammar

/-! ## Parentheses alone -/

namespace Brackets

def isParenthesis (c : Char) : Bool := c == '(' || c == ')'

/-- A text is balanced exactly if its parentheses are, wherever it stands and whatever was
open before it, as long as the number of open ones is the same. -/
theorem unpairedFrom?_filter (cs : List Char) {position position' : Nat}
    {opened opened' : List Nat} (h : opened.length = opened'.length) :
    unpairedFrom? position opened cs = none ↔
      unpairedFrom? position' opened' (cs.filter isParenthesis) = none := by
  induction cs generalizing position position' opened opened' with
  | nil =>
      change opened.getLast? = none ↔ opened'.getLast? = none
      rw [List.getLast?_eq_none_iff, List.getLast?_eq_none_iff, ← List.length_eq_zero_iff, h,
        List.length_eq_zero_iff]
  | cons c cs ih =>
      by_cases hopen : c = '('
      · rw [hopen, List.filter_cons_of_pos (by decide), unpairedFrom?, unpairedFrom?]
        apply ih
        rw [List.length_cons, List.length_cons, h]
      by_cases hclose : c = ')'
      · rw [hclose, List.filter_cons_of_pos (by decide)]
        cases opened with
        | nil =>
            rw [List.eq_nil_of_length_eq_zero h.symm]
            simp [unpairedFrom?]
        | cons place opened =>
            cases opened' with
            | nil => cases h
            | cons place' opened' =>
                rw [unpairedFrom?, unpairedFrom?]
                apply ih
                simpa using h
      · have hother : isParenthesis c = false := by simp [isParenthesis, hopen, hclose]
        have hpassed := balances_singleton hopen hclose position opened cs
        rw [List.filter_cons_of_neg (by simp [hother]), ← List.singleton_append, hpassed]
        exact ih h

/-- A class without the parentheses has none in its runs. -/
theorem filter_takeWhile {p : Char → Bool} (hopen : p '(' = false) (hclose : p ')' = false)
    (cs : List Char) : (cs.takeWhile p).filter isParenthesis = [] := by
  rw [List.filter_eq_nil_iff]
  intro c hc hparen
  have hp : p c = true := List.all_eq_true.mp List.all_takeWhile c hc
  simp only [isParenthesis, Bool.or_eq_true, beq_iff_eq] at hparen
  rcases hparen with rfl | rfl
  · rw [hopen] at hp
    cases hp
  · rw [hclose] at hp
    cases hp

theorem filter_takeWhile_isDigit (cs : List Char) :
    (cs.takeWhile isDigit).filter isParenthesis = [] :=
  filter_takeWhile (by decide) (by decide) cs

end Brackets

open Brackets

/-! ## Parentheses among pieces and tokens -/

/-- The parentheses of a piece. -/
def PieceKind.brackets : PieceKind → List Char
  | leftParen => ['(']
  | rightParen => [')']
  | _ => []

/-- The parentheses of a lexeme. -/
def Lexeme.brackets : Lexeme → List Char
  | leftParen => ['(']
  | rightParen => [')']
  | _ => []

/-- The parentheses of a list of tokens. -/
def Token.brackets (ts : List Token) : List Char := ts.flatMap fun t => t.lexeme.brackets

namespace Piece

theorem filter_splitFraction (cs : List Char) :
    (splitFraction cs).1.filter isParenthesis = [] := by
  unfold splitFraction
  split
  · dsimp only
    split
    · rfl
    · rw [List.filter_cons_of_neg (by decide)]
      exact filter_takeWhile_isDigit _
  · rfl

theorem filter_splitSign (cs : List Char) : (splitSign cs).1.filter isParenthesis = [] := by
  unfold splitSign
  split <;> rfl

theorem filter_splitPower (cs : List Char) : (splitPower cs).1.filter isParenthesis = [] := by
  unfold splitPower
  split
  · rfl
  · next c rest =>
      dsimp only
      split
      · next hpower =>
          have hletter : isParenthesis c = false := by
            rcases hpower.1 with rfl | rfl
            · decide
            · decide
          rw [List.cons_append, List.filter_cons_of_neg (by simp [hletter]), List.filter_append,
            filter_splitSign, filter_takeWhile_isDigit, List.append_nil]
      · rfl

/-- A number is written without parentheses. -/
theorem filter_number (cs : List Char) : (number cs).text.filter isParenthesis = [] := by
  change ((cs.takeWhile isDigit ++ (splitFraction (cs.dropWhile isDigit)).1) ++
    (splitPower (splitFraction (cs.dropWhile isDigit)).2).1).filter isParenthesis = []
  rw [List.filter_append, List.filter_append, filter_takeWhile_isDigit, filter_splitFraction,
    filter_splitPower]
  rfl

theorem filter_operator? {cs : List Char} {p : Piece} (h : operator? cs = some p) :
    p.text.filter isParenthesis = [] ∧ p.kind.brackets = [] := by
  unfold operator? at h
  split at h <;> cases h <;> exact ⟨rfl, rfl⟩

/-- The parentheses in the text of a piece are those of its kind. -/
theorem filter_first? {cs : List Char} {p : Piece} (h : first? cs = some p) :
    p.text.filter isParenthesis = p.kind.brackets := by
  unfold first? at h
  split at h
  · cases h
  · next c cs =>
      split at h
      · next hblank =>
          cases h
          have hrun := filter_takeWhile (p := isBlank) (by decide) (by decide) (c :: cs)
          rwa [List.takeWhile_cons_of_pos hblank] at hrun
      · split at h
        · cases h
          exact filter_number _
        · split at h
          · cases h
            rfl
          · split at h
            · cases h
              rfl
            · split at h
              · cases h
                rfl
              · obtain ⟨htext, hkind⟩ := filter_operator? h
                rw [htext, hkind]

/-- What a piece becomes has the parentheses of the piece. -/
theorem brackets_lexeme? {s : Settings} {p : Piece} {position : Nat}
    {lexeme? : Option Lexeme} (h : p.lexeme? s position = .ok lexeme?) :
    (lexeme?.map Lexeme.brackets).getD [] = p.kind.brackets := by
  unfold Piece.lexeme? at h
  split at h
  · next hkind => cases h; rw [hkind]; rfl
  · next hkind => cases h; rw [hkind]; rfl
  · next hkind => cases h; rw [hkind]; rfl
  · next hkind => cases h; rw [hkind]; rfl
  · cases h
  · next hkind =>
      dsimp only at h
      split at h
      · cases h
      · split at h
        · cases h
        · cases h; rw [hkind]; rfl

end Piece

namespace Token

variable {s : Settings} {position : Nat} {cs : List Char}

/-- **The tokens have the parentheses of the text**, by induction on the pieces. -/
theorem filter_of_ofCharsAt {ts : List Token} (h : ofCharsAt s position cs = .ok ts) :
    cs.filter isParenthesis = brackets ts := by
  fun_induction ofCharsAt s position cs generalizing ts with
  | case1 position =>
      cases h
      rfl
  | case2 position cs hne hnone => cases h
  | case3 position cs hne p hsome ih =>
      obtain ⟨lexeme?, hlexeme, hfollowing⟩ := bind_eq_ok_iff.mp h
      obtain ⟨following, hrest, hresult⟩ := bind_eq_ok_iff.mp hfollowing
      have hpiece := Piece.brackets_lexeme? hlexeme
      rw [← (Piece.first?_append hsome).1, List.filter_append, Piece.filter_first? hsome,
        ih hrest, ← hpiece]
      cases lexeme? with
      | none => cases hresult; rfl
      | some lexeme => cases hresult; rfl

/-- A blank text has no tokens. -/
theorem ofCharsAt_of_blank (h : cs.all isBlank = true) : ofCharsAt s position cs = .ok [] := by
  cases cs with
  | nil => exact ofCharsAt_nil
  | cons c cs =>
      obtain ⟨hc, hcs⟩ : isBlank c = true ∧ cs.all isBlank = true := by
        simpa using h
      have hrest : (cs ++ []).dropWhile isBlank = [] :=
        dropWhile_run (List.all_eq_true.mp hcs) rfl
      rw [List.append_nil] at hrest
      have hfirst : Piece.first? (c :: cs) =
          some ⟨.blank, c :: cs.takeWhile isBlank, []⟩ := by
        rw [Piece.first?, if_pos hc, hrest]
      rw [ofCharsAt_of_first? hfirst, ofCharsAt_nil]
      rfl

end Token

/-- **The parentheses of a derivation are balanced**, by induction on the derivation. -/
theorem Grammar.Derivation.balances {symbol : Symbol} (d : Derivation symbol) :
    Balances (Token.brackets d.tokens) := by
  have happend : ∀ ts ts', Token.brackets (ts ++ ts') = Token.brackets ts ++ Token.brackets ts' :=
    fun ts ts' => List.flatMap_append
  induction d with
  | chain first rest ihFirst ihRest =>
      rw [tokens, happend]
      exact ihFirst.append ihRest
  | done => exact balances_nil
  | more op place joins operand rest ihOperand ihRest =>
      change Balances (Token.brackets (operand.tokens ++ rest.tokens))
      rw [happend]
      exact ihOperand.append ihRest
  | base operand ih => exact ih
  | power base place exponent ihBase ihExponent =>
      rw [tokens, happend]
      exact ihBase.append ihExponent
  | unsigned operand ih => exact ih
  | plus place operand ih => exact ih
  | minus place operand ih => exact ih
  | number literal value place => exact balances_nil
  | group opening inside closing ih =>
      change Balances (['('] ++ Token.brackets (inside.tokens ++ [⟨.rightParen, closing⟩]))
      rw [happend]
      exact ih.enclosed

namespace Tree

variable {s : Settings} {source : String} {t : Tree}

/-- The parentheses of a source that has a tree are balanced. -/
theorem unpaired?_of_ofUnchecked (h : ofUnchecked s source = .ok t) :
    unpaired? source = none := by
  obtain ⟨ts, htokens, htree⟩ := bind_eq_ok_iff.mp h
  obtain ⟨d, rfl, -⟩ := exists_derivation_of_ofTokens htree
  have hbalanced := d.balances 0 [] []
  rw [List.append_nil, ← Token.filter_of_ofCharsAt htokens] at hbalanced
  exact (unpairedFrom?_filter source.toList rfl).mpr hbalanced

/-- A source that has a tree is not blank. -/
theorem not_blank_of_ofUnchecked (h : ofUnchecked s source = .ok t) :
    source.toList.all isBlank = false := by
  obtain ⟨ts, htokens, htree⟩ := bind_eq_ok_iff.mp h
  cases hblank : source.toList.all isBlank with
  | false => rfl
  | true =>
      rw [Token.ofSource, Token.ofCharsAt_of_blank hblank] at htokens
      cases htokens
      cases htree

/-- A source that is checked is passed on as it is. -/
theorem eq_of_checkSource {checked : String} (h : checkSource s source = .ok checked) :
    source = checked := by
  unfold checkSource at h
  split at h
  · cases h
  split at h
  · cases h
  split at h
  · cases h
  · cases h
    rfl

/-- **The checks refuse nothing that has a tree.**  A source that is not too long is read
with the checks exactly if it is read without them, and as the same tree. -/
theorem ofSource_ok_iff_ofUnchecked (s : Settings) (source : String)
    (h : (source.length : Int) ≤ s.maxInputLength) (t : Tree) :
    ofSource s source = .ok t ↔ ofUnchecked s source = .ok t := by
  constructor
  · intro hread
    obtain ⟨checked, hcheck, hunchecked⟩ := bind_eq_ok_iff.mp hread
    obtain rfl := eq_of_checkSource hcheck
    exact hunchecked
  · intro hread
    have hcheck : checkSource s source = .ok source := by
      rw [checkSource, if_neg (Int.not_lt.mpr h), not_blank_of_ofUnchecked hread,
        unpaired?_of_ofUnchecked hread]
      rfl
    rw [ofSource, hcheck]
    exact hread

/-- The theorem on a source with blanks and nested parentheses. -/
theorem ofSource_ok_iff_ofUnchecked_nested :
    let source := " ((1)+2) "
    (source.length : Int) ≤ ({} : Settings).maxInputLength ∧
    ∀ t, ofSource {} source = .ok t ↔ ofUnchecked {} source = .ok t := by
  intro source
  have hlength : (source.length : Int) ≤ ({} : Settings).maxInputLength := by decide
  exact ⟨hlength, ofSource_ok_iff_ofUnchecked {} source hlength⟩

end Tree

end DecimalCalc
