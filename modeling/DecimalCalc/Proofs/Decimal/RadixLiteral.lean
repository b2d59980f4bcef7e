import DecimalCalc.Decimal.Conversion
import DecimalCalc.Proofs.Decimal.NormalForm
import DecimalCalc.Proofs.Numeral.RadixReading
import DecimalCalc.Proofs.Outcome
/-!
# Texts in a radix

A text in a radix is the integer that it is, with the exponent zero, or it is refused as an
invalid literal.  Which of the two depends on its pieces alone, and `ofValue_radixText` says
for which texts this is reading the text as one integer: for those of at most a thousand
characters after the sign whose sign is not followed by blanks or another sign, and for the
longer ones that end in digits.

`ofValue_radixText_misread` has texts for which it is not: two signs are read, and an underscore
in a later piece counts as a digit.
-/

namespace DecimalCalc.Decimal

open Numeral Text

variable {radix : Nat} {s : String}

/-! ## The radix -/

/-- A value is a radix: the integer, or a number in any form that is equal to it. -/
def IsRadix (radix : Nat) (v : Value) : Prop :=
  2 ≤ radix ∧ radix ≤ 36 ∧ (v = .int radix ∨ ∃ d : Decimal, v = .number d ∧ d.toRat = radix)

theorem IsRadix.resolveRadix_eq {v : Value} (h : IsRadix radix v) :
    resolveRadix v = .ok radix := by
  obtain ⟨htwo, hmost, hv⟩ := h
  have hint : resolveRadix (.int radix) = .ok radix := by
    have hrange : (2 : Int) ≤ radix ∧ (radix : Int) ≤ 36 := by omega
    change (if 2 ≤ (radix : Int) ∧ (radix : Int) ≤ 36 then
      Except.ok (radix : Int).toNat else _) = _
    rw [if_pos hrange, Int.toNat_natCast]
  rcases hv with rfl | ⟨d, rfl, hd⟩
  · exact hint
  · have hnormal : d.normalize = ⟨radix, 0⟩ := by
      apply d.normalize_isNormal.eq_of_toRat_eq (isNormal_of_exponent_zero _)
      rw [toRat_normalize, hd, toRat, zpow_zero, mul_one, Int.cast_natCast]
    have hnumber : resolveRadix (.number d) = resolveRadix (.int radix) := by
      simp only [resolveRadix, hnormal]
      rfl
    rw [hnumber, hint]

theorem IsRadix.ne_none {v : Value} (h : IsRadix radix v) : v ≠ .none := by
  rcases h.2.2 with rfl | ⟨d, rfl, -⟩
  · exact Value.noConfusion
  · exact Value.noConfusion

/-! ## The answer -/

/-- What is answered for the integer that a text is in a radix, or is not. -/
def radixAnswer (radix : Nat) (s : String) : Option Int → Except Failure Decimal
  | some i => .ok (ofInt i)
  | none => .error (.error (.invalidRadixLiteral radix (quoted s)))

theorem radixAnswer_injective : Function.Injective (radixAnswer radix s) := by
  intro x y h
  cases x with
  | none =>
      cases y with
      | none => rfl
      | some j => cases h
  | some i =>
      cases y with
      | none => cases h
      | some j =>
          have hsame : ofInt i = ofInt j := Except.ok.inj h
          exact congrArg some (congrArg coefficient hsame)

theorem radixAnswer_ok_iff {x : Option Int} :
    (∃ i, radixAnswer radix s x = .ok (ofInt i)) ↔ x.isSome = true := by
  cases x with
  | none => simp [radixAnswer]
  | some i => simp [radixAnswer]

/-- **A text in a radix is read piece by piece.** -/
theorem ofValue_text_radix (ctx : Context) (s : String) {v : Value} (h : IsRadix radix v) :
    ofValue ctx (.text s) v = radixAnswer radix s (readLongInteger? radix s.toList) := by
  have hread : ofValue ctx (.text s) v = resolveRadix v >>= fun r =>
      match readLongInteger? r s.toList with
      | some i => pure (ofInt i)
      | none => throw (.error (.invalidRadixLiteral r (quoted s))) := by
    cases v with
    | none => exact absurd rfl h.ne_none
    | _ => rfl
  rw [hread, h.resolveRadix_eq, ok_bind]
  cases readLongInteger? radix s.toList <;> rfl

/-- **Which texts are integers in a radix.**  A text is accepted exactly if all of its pieces are
integer texts, and refused as an invalid literal otherwise.  A text of at most a thousand
characters after its sign is answered as the integer that it is, or is not, exactly if its sign
is not followed by blanks or another sign and then an integer.  So is every longer one that ends
in digits. -/
theorem ofValue_radixText (ctx : Context) (s : String) (htwo : 2 ≤ radix) (hmost : radix ≤ 36) :
    let answer := ofValue ctx (.text s) (.int radix)
    let body := unsigned s.toList
    ((∃ i, answer = .ok (ofInt i)) ↔
      ∀ part ∈ pieces body, (readInteger? radix part).isSome = true) ∧
    ((∀ i, answer ≠ .ok (ofInt i)) →
      ∃ e, answer = .error (.error e) ∧ e.kind = .construction ∧ e.code = "INVALID_LITERAL") ∧
    (body.length ≤ pieceLength →
      (answer = radixAnswer radix s (readInteger? radix s.toList) ↔
        ¬ SignedTwice radix s.toList)) ∧
    (pieceLength < body.length → EndsInDigits radix body →
      answer = radixAnswer radix s (readInteger? radix s.toList)) := by
  intro answer body
  have hanswer : answer = radixAnswer radix s (readLongInteger? radix s.toList) :=
    ofValue_text_radix ctx s ⟨htwo, hmost, .inl rfl⟩
  rw [hanswer]
  refine ⟨?_, ?_, ?_, ?_⟩
  · rw [radixAnswer_ok_iff, isSome_readLongInteger?_iff]
  · intro hrefused
    cases hread : readLongInteger? radix s.toList with
    | none => exact ⟨_, rfl, rfl, rfl⟩
    | some i =>
        rw [hread] at hrefused
        exact absurd rfl (hrefused i)
  · intro hshort
    rw [radixAnswer_injective.eq_iff]
    exact readLongInteger?_eq_iff_of_short hshort
  · intro hlong hdigits
    rw [readLongInteger?_eq_of_digits hlong hdigits]

/-- A text with a sign, a mark and an underscore, and one of fifteen hundred digits. -/
theorem ofValue_radixText_hexadecimal :
    let ctx := Context.initial {}
    let long := String.ofList (List.replicate 1500 'f')
    ofValue ctx (.text "-0x_fF") (.int 16) = .ok (ofInt (-255)) ∧
      ofValue ctx (.text long) (.int 16) = .ok (ofInt (16 ^ 1500 - 1)) := by
  intro ctx long
  have htwo : 2 ≤ 16 := by decide
  have hmost : 16 ≤ 36 := by decide
  constructor
  · have hrest : afterSign? "-0x_fF".toList = some "0x_fF".toList := by decide
    have honce : ¬ SignedTwice 16 "-0x_fF".toList := by
      intro htwice
      obtain ⟨rest, c, hrest', hc, hfront, -⟩ := htwice
      obtain rfl := Option.some.inj (hrest.symm.trans hrest')
      have hhead : "0x_fF".toList.head? = some '0' := by decide
      obtain rfl := Option.some.inj (hhead.symm.trans hc)
      exact absurd hfront (by decide)
    have hshort : (unsigned "-0x_fF".toList).length ≤ pieceLength := by decide
    have hread : readInteger? 16 "-0x_fF".toList = some (-255) := by decide
    have hanswer := ((ofValue_radixText ctx "-0x_fF" htwo hmost).2.2.1 hshort).mpr honce
    rw [hread] at hanswer
    exact hanswer
  · have hdigit : IsRadixDigit 16 'f' := by decide
    have hbody : unsigned long.toList = List.replicate 1500 'f' := by
      rw [String.toList_ofList]
      rfl
    have hends : EndsInDigits 16 (unsigned long.toList) := by
      rw [hbody]
      refine ⟨?_, ⟨'f', ?_, by decide, by decide⟩, ?_⟩
      · intro c hc
        rw [List.eq_of_mem_replicate (List.mem_of_mem_head? hc)]
        decide
      · rw [List.take_replicate, List.getLast?_replicate]
        rfl
      · intro c hc
        rw [List.eq_of_mem_replicate (List.mem_of_mem_drop hc)]
        exact hdigit
    have hlong : pieceLength < (unsigned long.toList).length := by
      rw [hbody, List.length_replicate]
      decide
    have hread : readInteger? 16 long.toList = some (16 ^ 1500 - 1) := by
      rw [String.toList_ofList]
      decide +kernel
    have hanswer := (ofValue_radixText ctx long htwo hmost).2.2.2 hlong hends
    rw [hread] at hanswer
    exact hanswer

/-- Two texts that are not answered as the integers that they are.  The first is none, but has a
sign that is taken off and another one that is read with the digits.  The second has an underscore
after its first thousand digits, which shifts them by one digit too many. -/
theorem ofValue_radixText_misread :
    let ctx := Context.initial {}
    let ones : Int := (10 ^ 1000 - 1) / 9
    let long := String.ofList (List.replicate 1000 '1' ++ "1_0".toList)
    (ofValue ctx (.text "--5") (.int 10) = .ok (ofInt 5) ∧
      readInteger? 10 "--5".toList = none) ∧
    ofValue ctx (.text long) (.int 10) = .ok (ofInt (ones * 1000 + 10)) ∧
      readInteger? 10 long.toList = some (ones * 100 + 10) := by
  intro ctx ones long
  have hradix : IsRadix 10 (.int 10) := ⟨by decide, by decide, .inl rfl⟩
  have hlist : long.toList = List.replicate 1000 '1' ++ "1_0".toList := String.toList_ofList
  refine ⟨⟨?_, by decide⟩, ?_, ?_⟩
  · have hshort : (unsigned "--5".toList).length ≤ pieceLength := by decide
    have hread : readLongInteger? 10 "--5".toList = some 5 := by
      rw [readLongInteger?_of_short hshort]
      decide
    rw [ofValue_text_radix _ _ hradix, hread]
    rfl
  · have hsign : afterSign? long.toList = none := by
      rw [hlist]
      rfl
    have hlength : (List.replicate 1000 '1').length = pieceLength := List.length_replicate
    have hpieces : pieces long.toList = [List.replicate 1000 '1', "1_0".toList] := by
      rw [hlist, pieces_append hlength (by decide), pieces, if_pos (by decide)]
    have hfirst : readInteger? 10 (List.replicate 1000 '1') = some ones := by decide +kernel
    have hsecond : readInteger? 10 "1_0".toList = some 10 := by decide
    have hread : readLongInteger? 10 long.toList = some (ones * 1000 + 10) := by
      rw [readLongInteger?_eq, signedAs_eq_id hsign, unsigned, hsign, Option.getD_none, hpieces,
        readPieces?_eq, readPiecesFrom?_cons, hfirst, Option.bind_some, readPiecesFrom?_cons, hsecond,
        Option.bind_some, readPiecesFrom?_nil]
      decide +kernel
    rw [ofValue_text_radix ctx long hradix, hread]
    rfl
  · rw [hlist]
    decide +kernel

end DecimalCalc.Decimal
