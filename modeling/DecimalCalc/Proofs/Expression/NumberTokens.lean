import DecimalCalc.Proofs.Expression.LiteralReading
import DecimalCalc.Proofs.Numeral.LeadingDigit
import Mathlib.Tactic.FieldSimp
/-!
# What a number token stands for

The two patterns of the language, the one that cuts a number off the source and the one that
reads its literal, are written differently: the first takes a point only with digits after
it, and allows a capital letter and a plus before the power of ten.  `Literal.Denotes` is
the notation that both are about, with the number that it stands for, place by place:

* `Literal.denotes_number` -- what is cut off where a digit begins a number is a literal,
* `Literal.Denotes.number_eq` -- and a literal is cut off whole, before whatever closes an
  operand,
* `Literal.Denotes.ofLiteral?_eq` -- its plain spelling is read as the number it denotes, so
* `Literal.Denotes.unique` -- there is one such number.
-/

namespace DecimalCalc

open Text Numeral Decimal

/-! ## Digits -/

/-- Digits of any script stand for a number, the last one for its units. -/
def IsNumeral (cs : List Char) (n : Nat) : Prop :=
  ∃ ds : List Nat, cs.map digitValue? = ds.map some ∧ n = Nat.ofDigits 10 ds.reverse

section Digits

variable {cs : List Char} {n : Nat}

theorem isNumeral_digitsValue (h : ∀ c ∈ cs, isDigit c = true) :
    IsNumeral cs (Literal.digitsValue cs) := by
  refine ⟨cs.filterMap digitValue?, ?_, ofDigits_eq_natOfDigits 10 _⟩
  induction cs with
  | nil => rfl
  | cons c cs ih =>
      obtain ⟨hc, hcs⟩ := List.forall_mem_cons.mp h
      obtain ⟨d, hd⟩ := Option.isSome_iff_exists.mp hc
      rw [List.map_cons, List.filterMap_cons_some hd, List.map_cons, hd, ih hcs]

theorem IsNumeral.isDigit (h : IsNumeral cs n) : ∀ c ∈ cs, isDigit c = true := by
  obtain ⟨ds, hds, -⟩ := h
  intro c hc
  have hmem : digitValue? c ∈ ds.map some := hds ▸ List.mem_map_of_mem hc
  obtain ⟨d, -, hd⟩ := List.mem_map.mp hmem
  rw [Text.isDigit, ← hd, Option.isSome_some]

theorem IsNumeral.filterMap_eq (h : IsNumeral cs n) :
    (cs.filterMap digitValue?).length = cs.length ∧
      ofDigits 10 (cs.filterMap digitValue?) = n := by
  obtain ⟨ds, hds, rfl⟩ := h
  have hkept : (cs.map digitValue?).filterMap id = (ds.map some).filterMap id :=
    congrArg (List.filterMap id) hds
  have hvalues : cs.filterMap digitValue? = ds := by
    simpa [List.filterMap_map] using hkept
  have hlength := congrArg List.length hds
  rw [List.length_map, List.length_map] at hlength
  rw [hvalues]
  exact ⟨hlength.symm, ofDigits_eq_natOfDigits 10 ds⟩

theorem IsNumeral.digitsValue_eq (h : IsNumeral cs n) : Literal.digitsValue cs = n :=
  h.filterMap_eq.2

/-- Further digits raise those before them by one place each. -/
theorem IsNumeral.digitsValue_append {cs' : List Char} {m : Nat} (h : IsNumeral cs n)
    (h' : IsNumeral cs' m) : Literal.digitsValue (cs ++ cs') = n * 10 ^ cs'.length + m := by
  obtain ⟨-, hn⟩ := h.filterMap_eq
  obtain ⟨hlength, hm⟩ := h'.filterMap_eq
  rw [Literal.digitsValue, List.filterMap_append, ofDigits_append, hn, hm, hlength]

end Digits

namespace Literal

/-! ## The notation -/

/-- What may stand behind the digits of a literal, and the power of ten that it stands
for. -/
inductive Scales : List Char → Int → Prop where
  | nothing : Scales [] 0
  | unsigned {letter : Char} {ds : List Char} {n : Nat} (hletter : letter = 'e' ∨ letter = 'E')
      (hne : ds ≠ []) (hds : IsNumeral ds n) : Scales (letter :: ds) n
  | plus {letter : Char} {ds : List Char} {n : Nat} (hletter : letter = 'e' ∨ letter = 'E')
      (hne : ds ≠ []) (hds : IsNumeral ds n) : Scales (letter :: '+' :: ds) n
  | minus {letter : Char} {ds : List Char} {n : Nat} (hletter : letter = 'e' ∨ letter = 'E')
      (hne : ds ≠ []) (hds : IsNumeral ds n) : Scales (letter :: '-' :: ds) (-n)

/-- A literal of the source denotes a number: digits, a point and further digits or neither,
and a power of ten or none. -/
inductive Denotes : List Char → ℚ → Prop where
  | literal {whole fraction power : List Char} {n m : Nat} {p : Int} (hne : whole ≠ [])
      (hwhole : IsNumeral whole n) (hfraction : IsNumeral fraction m) (hpower : Scales power p) :
      Denotes (whole ++ pointed fraction ++ power)
        ((n + m / 10 ^ fraction.length) * 10 ^ p)

/-! ## Cutting a literal off -/

section Cutting

variable {cs power : List Char} {p : Int}

/-- A power of ten begins with a letter. -/
theorem Scales.head (h : Scales power p) :
    power = [] ∨ ∃ letter rest, power = letter :: rest ∧ (letter = 'e' ∨ letter = 'E') := by
  cases h with
  | nothing => exact .inl rfl
  | unsigned hletter | plus hletter | minus hletter => exact .inr ⟨_, _, rfl, hletter⟩

theorem Scales.takeWhile_isDigit (h : Scales power p) : power.takeWhile isDigit = [] := by
  rcases h.head with rfl | ⟨letter, rest, rfl, rfl | rfl⟩
  · rfl
  · exact List.takeWhile_cons_of_neg (by decide)
  · exact List.takeWhile_cons_of_neg (by decide)

theorem Scales.splitFraction_eq (h : Scales power p) :
    Piece.splitFraction power = ([], power) := by
  rcases h.head with rfl | ⟨letter, rest, rfl, rfl | rfl⟩ <;> rfl

/-- A power of ten is cut off whole. -/
theorem Scales.splitPower_eq (h : Scales power p) : Piece.splitPower power = (power, []) := by
  have htake : ∀ {ds : List Char} {n : Nat}, IsNumeral ds n →
      ds.takeWhile isDigit = ds ∧ ds.dropWhile isDigit = [] :=
    fun hds => ⟨List.takeWhile_eq_self_iff.mpr hds.isDigit,
      List.dropWhile_eq_nil_iff.mpr hds.isDigit⟩
  cases h with
  | nothing => rfl
  | unsigned hletter hne hds =>
      have hsign := splitSign_of_isDigit (List.all_eq_true.mpr hds.isDigit)
      simp [Piece.splitPower, hsign, htake hds, hne, hletter]
  | plus hletter hne hds | minus hletter hne hds =>
      simp [Piece.splitPower, Piece.splitSign, htake hds, hne, hletter]

/-- What is cut off as a power of ten is one. -/
theorem scales_splitPower (cs : List Char) : ∃ p, Scales (Piece.splitPower cs).1 p := by
  have hrun : ∀ ds : List Char, IsNumeral (ds.takeWhile isDigit)
      (digitsValue (ds.takeWhile isDigit)) :=
    fun ds => isNumeral_digitsValue (List.all_eq_true.mp List.all_takeWhile)
  cases cs with
  | nil => exact ⟨0, .nothing⟩
  | cons letter rest =>
      rw [Piece.splitPower]
      dsimp only
      split
      · next hpower =>
          obtain ⟨hletter, hne⟩ := hpower
          unfold Piece.splitSign at hne ⊢
          split at hne
          · exact ⟨_, .plus hletter hne (hrun _)⟩
          · exact ⟨_, .minus hletter hne (hrun _)⟩
          · exact ⟨_, .unsigned hletter hne (hrun _)⟩
      · exact ⟨0, .nothing⟩

/-- What is cut off as a fraction is a point with digits after it, or nothing. -/
theorem exists_pointed (cs : List Char) :
    ∃ fraction m, (Piece.splitFraction cs).1 = pointed fraction ∧ IsNumeral fraction m := by
  unfold Piece.splitFraction
  split
  · dsimp only
    split
    · exact ⟨[], 0, rfl, [], rfl, rfl⟩
    · next rest hne =>
        exact ⟨rest.takeWhile isDigit, _, (pointed_of_ne_nil hne).symm,
          isNumeral_digitsValue (List.all_eq_true.mp List.all_takeWhile)⟩
  · exact ⟨[], 0, rfl, [], rfl, rfl⟩

/-- **What is cut off as a number is a literal.** -/
theorem denotes_number {c : Char} (h : isDigit c = true) (cs : List Char) :
    ∃ x, Denotes (Piece.number (c :: cs)).text x := by
  have hne : (c :: cs).takeWhile isDigit ≠ [] := by
    rw [List.takeWhile_cons_of_pos h]
    exact List.cons_ne_nil _ _
  have hwhole : IsNumeral ((c :: cs).takeWhile isDigit) _ :=
    isNumeral_digitsValue (List.all_eq_true.mp List.all_takeWhile)
  obtain ⟨fraction, m, hpointed, hfraction⟩ := exists_pointed ((c :: cs).dropWhile isDigit)
  obtain ⟨p, hpower⟩ :=
    scales_splitPower (Piece.splitFraction ((c :: cs).dropWhile isDigit)).2
  have hdenotes := Denotes.literal hne hwhole hfraction hpower
  rw [← hpointed] at hdenotes
  exact ⟨_, hdenotes⟩

theorem Denotes.head {x : ℚ} (h : Denotes cs x) :
    ∃ c rest, cs = c :: rest ∧ isDigit c = true := by
  cases h with
  | @literal whole _ _ _ _ _ hne hwhole _ _ =>
      cases whole with
      | nil => exact absurd rfl hne
      | cons c whole => exact ⟨c, _, rfl, hwhole.isDigit c List.mem_cons_self⟩

/-- A literal by itself is one number. -/
theorem Denotes.number_self {x : ℚ} (h : Denotes cs x) :
    Piece.number cs = ⟨.number, cs, []⟩ := by
  cases h with
  | literal hne hwhole hfraction hpower =>
      rw [List.append_assoc, Piece.number_pointed hwhole.isDigit hfraction.isDigit
        hpower.takeWhile_isDigit hpower.splitFraction_eq, hpower.splitPower_eq,
        List.append_assoc]

/-- **A literal is cut off whole**, before whatever closes an operand. -/
theorem Denotes.number_eq {x : ℚ} (h : Denotes cs x) {rest : List Char} (hrest : Closes rest) :
    Piece.number (cs ++ rest) = ⟨.number, cs, rest⟩ := by
  rw [Piece.number_append_closes cs hrest, h.number_self, List.nil_append]

end Cutting

/-! ## Reading a literal -/

section Reading

variable {cs power : List Char} {p : Int} {x y : ℚ}

theorem plain_append (cs cs' : List Char) : plain (cs ++ cs') = plain cs ++ plain cs' := by
  rw [plain, List.filter_append, List.map_append]
  rfl

theorem plain_of_isDigit (h : ∀ c ∈ cs, isDigit c = true) : plain cs = cs :=
  plain_of_forall fun c hc => ⟨ne_of_isDigit (h c hc) (by decide), toLower_of_isDigit (h c hc)⟩

theorem plain_pointed (h : ∀ c ∈ cs, isDigit c = true) : plain (pointed cs) = pointed cs := by
  cases cs with
  | nil => rfl
  | cons c cs =>
      have hdigits := plain_of_isDigit h
      change '.' :: plain (c :: cs) = '.' :: c :: cs
      rw [hdigits]

/-- The letter of a power of ten is read in either case. -/
theorem plain_letter {letter : Char} (h : letter = 'e' ∨ letter = 'E') (cs : List Char) :
    plain (letter :: cs) = 'e' :: plain cs := by
  rcases h with rfl | rfl
  · rfl
  · rfl

/-- The digits of a power of ten that has no minus. -/
theorem readPower?_digits {ds : List Char} (hne : ds ≠ []) (h : ∀ c ∈ ds, isDigit c = true) :
    readPower? ('e' :: plain ds) = some (false, ds) := by
  have hall : ds.all isDigit = true := List.all_eq_true.mpr h
  rw [plain_of_isDigit h, readPower?, if_pos ⟨hne, hall⟩]
  -- digits begin with no sign
  rintro rest rfl
  rw [List.all_cons] at hall
  cases hall

/-- The plain spelling of a power of ten is read as the power. -/
theorem Scales.readPower?_plain (h : Scales power p) :
    ∃ sign ds, readPower? (plain power) = some (sign, ds) ∧
      (if sign then -(digitsValue ds : Int) else digitsValue ds) = p := by
  cases h with
  | nothing => exact ⟨false, [], rfl, rfl⟩
  | @unsigned letter ds n hletter hne hds =>
      refine ⟨false, ds, ?_, by rw [hds.digitsValue_eq]; rfl⟩
      rw [plain_letter hletter, readPower?_digits hne hds.isDigit]
  | @plus letter ds n hletter hne hds =>
      have hsign : plain ('+' :: ds) = plain ds := rfl
      refine ⟨false, ds, ?_, by rw [hds.digitsValue_eq]; rfl⟩
      rw [plain_letter hletter, hsign, readPower?_digits hne hds.isDigit]
  | @minus letter ds n hletter hne hds =>
      have hsign : plain ('-' :: ds) = '-' :: plain ds := rfl
      have hall : ds.all Text.isDigit = true := List.all_eq_true.mpr hds.isDigit
      refine ⟨true, ds, ?_, by rw [hds.digitsValue_eq]; rfl⟩
      rw [plain_letter hletter, hsign, plain_of_isDigit hds.isDigit, readPower?,
        if_pos ⟨hne, hall⟩]

/-- **A literal is read as the number that it denotes.** -/
theorem Denotes.ofLiteral?_eq (h : Denotes cs x) :
    ∃ d, Decimal.ofLiteral? (plain cs) = some d ∧ d.toRat = x := by
  cases h with
  | @literal whole fraction power n m p hne hwhole hfraction hpower =>
      obtain ⟨sign, ds, hread, hp⟩ := hpower.readPower?_plain
      have hplain : plain (whole ++ pointed fraction ++ power) =
          whole ++ (pointed fraction ++ plain power) := by
        rw [plain_append, plain_append, plain_of_isDigit hwhole.isDigit,
          plain_pointed hfraction.isDigit, List.append_assoc]
      have hunsigned := readUnsigned?_pointed hne hwhole.isDigit hfraction.isDigit hread false
      refine ⟨_, by rw [hplain, ofLiteral?, read?_of_readUnsigned? hunsigned, Option.map_some],
        ?_⟩
      have hten : (10 : ℚ) ≠ 0 := by norm_num
      rw [value, toRat_ofParts]
      dsimp only
      rw [hp, hwhole.digitsValue_append hfraction, if_neg Bool.false_ne_true, zpow_sub₀ hten,
        zpow_natCast]
      push_cast
      field_simp

theorem Denotes.unique (hx : Denotes cs x) (hy : Denotes cs y) : x = y := by
  obtain ⟨d, hd, rfl⟩ := hx.ofLiteral?_eq
  obtain ⟨d', hd', rfl⟩ := hy.ofLiteral?_eq
  rw [hd] at hd'
  rw [Option.some.inj hd']

end Reading

/-! ## Number tokens -/

section Tokens

variable {s : Settings} {cs : List Char} {x : ℚ} {lexeme : Lexeme}

/-- **The lexeme of a literal** is the normal form of the number that it denotes, and is the
same wherever the literal stands. -/
theorem Denotes.lexeme_eq (h : Denotes cs x) {rest : List Char} {position : Nat}
    (hlexeme : Piece.lexeme? s ⟨.number, cs, rest⟩ position = .ok (some lexeme)) :
    ∃ value, lexeme = .number (String.ofList cs) value ∧ value.toRat = x ∧
      ∀ rest position, Piece.lexeme? s ⟨.number, cs, rest⟩ position = .ok (some lexeme) := by
  obtain ⟨d, hd, hx⟩ := h.ofLiteral?_eq
  unfold plain at hd
  unfold Piece.lexeme? at hlexeme ⊢
  dsimp only at hlexeme ⊢
  rw [hd] at hlexeme ⊢
  dsimp only at hlexeme ⊢
  by_cases hlimit : s.maxLiteralExponent < d.exponent.natAbs
  · rw [if_pos hlimit] at hlexeme
    cases hlexeme
  · rw [if_neg hlimit] at hlexeme
    cases hlexeme
    refine ⟨d.normalize, rfl, (toRat_normalize d).trans hx, ?_⟩
    intro rest position
    rw [if_neg hlimit]

/-- A number is not passed over. -/
theorem lexeme?_ne_none (rest : List Char) (position : Nat) :
    Piece.lexeme? s ⟨.number, cs, rest⟩ position ≠ .ok none := by
  unfold Piece.lexeme?
  dsimp only
  split
  · exact nofun
  · split
    · exact nofun
    · exact nofun

/-- A number token is cut again as the same token, before whatever closes an operand. -/
theorem Denotes.lexes (h : Denotes cs x)
    (hlexeme : ∀ rest position, Piece.lexeme? s ⟨.number, cs, rest⟩ position = .ok (some lexeme))
    (position : Nat) {rest : List Char} (hrest : Closes rest) :
    Token.Lexes s position cs [⟨lexeme, position⟩] rest := by
  obtain ⟨c, following, hcs, hdigit⟩ := h.head
  have hfirst : Piece.first? (cs ++ rest) = some (Piece.number (cs ++ rest)) := by
    rw [hcs]
    exact Piece.first?_of_isDigit hdigit
  rw [h.number_eq hrest] at hfirst
  exact Token.lexes_token hfirst (hlexeme rest position)

end Tokens

end Literal

end DecimalCalc
