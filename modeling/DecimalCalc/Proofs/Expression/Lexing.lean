import DecimalCalc.Expression.Lexer
import DecimalCalc.Proofs.Decimal.PlainText
import DecimalCalc.Proofs.Outcome
/-!
# Cutting a text piece by piece

Tokens are cut off the front of a text, so what a text begins with can be told apart from
what follows: `Token.Lexes` says that the front of a text gives some tokens, whatever the
rest gives.  Such fronts are put together by `Lexes.append`, and the single ones are the
pieces of the language.  A number ends where no digit, point or letter follows it; in a
text with parentheses around every operation a blank or a closing parenthesis does
(`Closes`).

A number among the tokens is always a normal form within the limit on exponents
(`Token.normal_of_ofCharsAt`).
-/

namespace DecimalCalc

open Text Numeral Decimal

/-- The end of a text, a blank or a closing parenthesis: what can follow an operand. -/
inductive Closes : List Char → Prop where
  | nothing : Closes []
  | blank (cs : List Char) : Closes (' ' :: cs)
  | paren (cs : List Char) : Closes (')' :: cs)

section Closes

variable {rest : List Char}

theorem Closes.takeWhile_isDigit (h : Closes rest) : rest.takeWhile isDigit = [] := by
  cases h with
  | nothing => rfl
  | blank | paren => rw [List.takeWhile_cons_of_neg (by decide)]

theorem Closes.splitFraction_eq (h : Closes rest) : Piece.splitFraction rest = ([], rest) := by
  cases h <;> rfl

theorem Closes.splitPower_eq (h : Closes rest) : Piece.splitPower rest = ([], rest) := by
  cases h with
  | nothing => rfl
  | blank | paren =>
      rw [Piece.splitPower]
      exact if_neg (by simp)

end Closes

/-! ## Numbers as pieces -/

/-- A text without pluses and capital letters, as literals are read. -/
def Literal.plain (cs : List Char) : List Char := (cs.filter (· != '+')).map Char.toLower

theorem Literal.plain_of_forall {cs : List Char} (h : ∀ c ∈ cs, c ≠ '+' ∧ c.toLower = c) :
    plain cs = cs := by
  have hplus : ∀ c ∈ cs, (c != '+') = true := fun c hc => bne_iff_ne.mpr (h c hc).1
  have hlower : ∀ c ∈ cs, c.toLower = id c := fun c hc => (h c hc).2
  rw [plain, List.filter_eq_self.mpr hplus, List.map_congr_left hlower, List.map_id]

section Numbers

variable {whole fraction rest : List Char} {a : Decimal}

/-- What holds of the digits and of the point holds of the characters of plain text. -/
theorem Decimal.Spells.forall_of (h : Spells whole fraction a) {P : Char → Prop}
    (hdigit : ∀ d < 10, P (digitChar d)) (hpoint : P '.') :
    ∀ c ∈ whole ++ pointed fraction, P c := by
  intro c hc
  rcases List.mem_append.mp hc with hwhole | hpointed
  · exact (h.chars c (List.mem_append_left _ hwhole)).forall_of hdigit
  · cases fraction with
    | nil => cases hpointed
    | cons d ds =>
        rcases List.mem_cons.mp hpointed with rfl | hfraction
        · exact hpoint
        · exact (h.chars c (List.mem_append_right _ hfraction)).forall_of hdigit

/-- Digits around a point are taken together, up to where they end, and then a power of ten
is. -/
theorem Piece.number_pointed (hwhole : ∀ c ∈ whole, isDigit c = true)
    (hfraction : ∀ c ∈ fraction, isDigit c = true) (hrest : rest.takeWhile isDigit = [])
    (hpoint : Piece.splitFraction rest = ([], rest)) :
    Piece.number (whole ++ (pointed fraction ++ rest)) =
      ⟨.number, whole ++ pointed fraction ++ (Piece.splitPower rest).1,
        (Piece.splitPower rest).2⟩ := by
  have hstop : (pointed fraction ++ rest).takeWhile isDigit = [] := by
    cases fraction with
    | nil => exact hrest
    | cons c cs => exact List.takeWhile_cons_of_neg (by decide)
  have hsplit : Piece.splitFraction (pointed fraction ++ rest) = (pointed fraction, rest) := by
    cases fraction with
    | nil => exact hpoint
    | cons c cs =>
        rw [pointed, List.cons_append, Piece.splitFraction, takeWhile_run hfraction hrest,
          dropWhile_run hfraction hrest]
        rfl
  unfold Piece.number
  rw [takeWhile_run hwhole hstop, dropWhile_run hwhole hstop, hsplit]

/-- Digits are taken up to where they end. -/
theorem Decimal.Spells.number_eq (h : Spells whole fraction a) (hrest : Closes rest) :
    Piece.number (whole ++ pointed fraction ++ rest) =
      ⟨.number, whole ++ pointed fraction, rest⟩ := by
  rw [List.append_assoc, Piece.number_pointed h.whole_isDigit h.fraction_isDigit
    hrest.takeWhile_isDigit hrest.splitFraction_eq, hrest.splitPower_eq, List.append_nil]

/-- The first piece of a text that begins with the digits of a number. -/
theorem Decimal.Spells.first?_eq (h : Spells whole fraction a) (hrest : Closes rest) :
    Piece.first? (whole ++ pointed fraction ++ rest) =
      some ⟨.number, whole ++ pointed fraction, rest⟩ := by
  rw [← h.number_eq hrest]
  have hne := h.whole_ne_nil
  have hchars := h.chars
  cases whole with
  | nil => exact absurd rfl hne
  | cons c cs =>
      have hc : IsNumeralChar c := hchars c (List.mem_append_left _ List.mem_cons_self)
      have hblank : isBlank c = false := hc.forall_of (P := fun c => isBlank c = false) (by decide)
      rw [List.cons_append, List.cons_append, Piece.first?, hblank,
        isDigit_of_isNumeralChar hc]
      rfl

/-- The digits of a normal form are the token of its absolute value. -/
theorem Decimal.Spells.lexeme?_eq {s : Settings} (h : Spells whole fraction a)
    (hnormal : a.IsNormal) (hlimit : a.exponent.natAbs ≤ s.maxLiteralExponent)
    (position : Nat) :
    Piece.lexeme? s ⟨.number, whole ++ pointed fraction, rest⟩ position =
      .ok (some (.number (String.ofList (whole ++ pointed fraction)) a.abs)) := by
  have hplain : ((whole ++ pointed fraction).filter (· != '+')).map Char.toLower =
      whole ++ pointed fraction :=
    Literal.plain_of_forall (h.forall_of (by decide) (by decide))
  have hvalue : Decimal.ofLiteral? (whole ++ pointed fraction) = some a.abs := by
    rw [ofLiteral?, h.read?_eq, Option.map_some, h.value_eq]
    exact congrArg some hnormal.ofParts_natAbs
  have hexponent := a.natAbs_exponent_abs
  unfold Piece.lexeme?
  dsimp only
  rw [hplain, hvalue]
  dsimp only
  rw [if_neg (by omega), hnormal.abs.normalize_eq]

end Numbers

/-- A number that is a normal form within the limit on exponents, or no number. -/
def Lexeme.Normal (s : Settings) : Lexeme → Prop
  | .number _ d => d.IsNormal ∧ d.exponent.natAbs ≤ s.maxLiteralExponent
  | _ => True

namespace Token

/-! ## Fronts of a text -/

/-- The front of a text gives some tokens, whatever the rest gives. -/
def Lexes (s : Settings) (position : Nat) (front : List Char) (ts : List Token)
    (rest : List Char) : Prop :=
  ofCharsAt s position (front ++ rest) =
    (ofCharsAt s (position + front.length) rest).map (ts ++ ·)

variable {s : Settings} {position : Nat} {front rest : List Char}

/-- One piece is cut off, and then the rest. -/
theorem ofCharsAt_of_first? {cs : List Char} {p : Piece} (h : Piece.first? cs = some p) :
    ofCharsAt s position cs = do
      let lexeme? ← p.lexeme? s position
      let following ← ofCharsAt s (position + p.text.length) p.rest
      match lexeme? with
      | some lexeme => return ⟨lexeme, position⟩ :: following
      | none => return following := by
  have hne : cs ≠ [] := by
    rintro rfl
    cases h
  rw [ofCharsAt, if_neg hne]
  split
  · next hnone => rw [h] at hnone; cases hnone
  · next q hsome =>
      rw [h] at hsome
      cases hsome
      rfl

theorem ofCharsAt_nil : ofCharsAt s position [] = .ok [] := by
  rw [ofCharsAt, if_pos rfl]

/-- Fronts one after the other. -/
theorem Lexes.append {front' : List Char} {ts ts' : List Token}
    (h : Lexes s position front ts (front' ++ rest))
    (h' : Lexes s (position + front.length) front' ts' rest) :
    Lexes s position (front ++ front') (ts ++ ts') rest := by
  unfold Lexes at h h' ⊢
  rw [List.append_assoc, h, h', List.length_append, Nat.add_assoc]
  cases ofCharsAt s (position + (front.length + front'.length)) rest with
  | error e => rfl
  | ok following => exact congrArg Except.ok (List.append_assoc ts ts' following).symm

/-- A piece that is a token. -/
theorem lexes_token {kind : PieceKind} {lexeme : Lexeme}
    (hfirst : Piece.first? (front ++ rest) = some ⟨kind, front, rest⟩)
    (hlexeme : Piece.lexeme? s ⟨kind, front, rest⟩ position = .ok (some lexeme)) :
    Lexes s position front [⟨lexeme, position⟩] rest := by
  unfold Lexes
  rw [ofCharsAt_of_first? hfirst, hlexeme]
  cases ofCharsAt s (position + front.length) rest with
  | error e => rfl
  | ok following => rfl

/-- A blank in front of something else. -/
theorem lexes_blank (hrest : rest.takeWhile isBlank = []) :
    Lexes s position [' '] [] rest := by
  have hspan : ([] ++ rest).dropWhile isBlank = rest := dropWhile_run (by simp) hrest
  have hfirst : Piece.first? (' ' :: rest) = some ⟨.blank, [' '], rest⟩ := by
    rw [List.nil_append] at hspan
    rw [Piece.first?, if_pos (by decide), hrest, hspan]
  unfold Lexes
  rw [List.singleton_append, ofCharsAt_of_first? hfirst]
  cases ofCharsAt s (position + 1) rest with
  | error e => rfl
  | ok following => rfl

theorem lexes_leftParen : Lexes s position ['('] [⟨.leftParen, position⟩] rest :=
  lexes_token rfl rfl

theorem lexes_rightParen : Lexes s position [')'] [⟨.rightParen, position⟩] rest :=
  lexes_token rfl rfl

theorem lexes_minus : Lexes s position ['-'] [⟨.operator .sub, position⟩] rest :=
  lexes_token rfl rfl

/-- An operator before what cannot make it a longer one. -/
theorem lexes_operator {op : Operator} (hop : op ∈ Operator.known) (hrest : Closes rest) :
    Lexes s position op.name.toList [⟨.operator op, position⟩] rest := by
  cases op with
  | unknown name => simp [Operator.known] at hop
  | _ => cases hrest <;> exact lexes_token rfl rfl

/-- The digits of a normal form before what closes an operand. -/
theorem lexes_number {whole fraction : List Char} {a : Decimal}
    (h : Spells whole fraction a) (hnormal : a.IsNormal)
    (hlimit : a.exponent.natAbs ≤ s.maxLiteralExponent) (hrest : Closes rest) :
    Lexes s position (whole ++ pointed fraction)
      [⟨.number (String.ofList (whole ++ pointed fraction)) a.abs, position⟩] rest :=
  lexes_token (h.first?_eq hrest) (h.lexeme?_eq hnormal hlimit position)

/-! ## Numbers among the tokens -/

/-- The lexeme of a piece is normal. -/
theorem normal_of_lexeme? {p : Piece} {lexeme : Lexeme}
    (h : p.lexeme? s position = .ok (some lexeme)) : lexeme.Normal s := by
  unfold Piece.lexeme? at h
  split at h
  · cases h
  · cases h
    trivial
  · cases h
    trivial
  · cases h
    trivial
  · cases h
  · dsimp only at h
    split at h
    · cases h
    · next value hvalue =>
        split at h
        · cases h
        · next hlimit =>
            cases h
            have hexponent := value.natAbs_exponent_normalize
            exact ⟨value.normalize_isNormal, by omega⟩

/-- **Every number token is a normal form** within the limit on exponents, by induction on
the pieces. -/
theorem normal_of_ofCharsAt {cs : List Char} {ts : List Token}
    (h : ofCharsAt s position cs = .ok ts) : ∀ t ∈ ts, t.lexeme.Normal s := by
  fun_induction ofCharsAt s position cs generalizing ts with
  | case1 position =>
      cases h
      intro t ht
      cases ht
  | case2 position cs hne hnone => cases h
  | case3 position cs hne p hsome ih =>
      obtain ⟨lexeme?, hlexeme, hfollowing⟩ := bind_eq_ok_iff.mp h
      obtain ⟨following, hrest, hresult⟩ := bind_eq_ok_iff.mp hfollowing
      cases lexeme? with
      | none =>
          cases hresult
          exact ih hrest
      | some lexeme =>
          cases hresult
          exact List.forall_mem_cons.mpr ⟨normal_of_lexeme? hlexeme, ih hrest⟩

end Token

end DecimalCalc
