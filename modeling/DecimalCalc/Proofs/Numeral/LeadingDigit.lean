import DecimalCalc.Decimal.Literal
import DecimalCalc.Proofs.Numeral.Digits
import Mathlib.Data.List.Basic
import Mathlib.Data.List.Induction
import Mathlib.Data.Nat.Digits.Lemmas
import Mathlib.Tactic.Ring
/-!
# Numerals without superfluous zeros

The digits of a positive number do not begin with zero (`head?_digits`), and they are the
only ones that do not: such digits are those of the number they stand for
(`digits_ofDigits`).  Zeros in front matter no more where the length is given
(`ofDigits_injective`), and the length of a numeral tells which power of ten the number is
below (`length_natChars_le_iff`).  The same is said of characters (`natChars_digitsValue`,
`digitsValue_injective`), and the last one tells whether ten divides the number
(`ten_dvd_digitsValue_append`).
-/

namespace DecimalCalc.Numeral

open Text

variable {ds es : List Nat}

/-- The number that digits stand for, least significant digit first. -/
theorem ofDigits_eq_natOfDigits (radix : Nat) (ds : List Nat) :
    ofDigits radix ds = Nat.ofDigits radix ds.reverse := by
  induction ds using List.reverseRecOn with
  | nil => rfl
  | append_singleton ds d ih =>
      rw [ofDigits_append, ih, List.reverse_append, List.reverse_singleton,
        List.singleton_append, Nat.ofDigits_cons]
      simp [ofDigits]
      ring

theorem trimmedDigits_head? {level n : Nat} (hlt : n < tenTo (twoTo level)) (hpos : 0 < n) :
    (trimmedDigits level n).head? ≠ some 0 := by
  induction level generalizing n with
  | zero =>
      have hten : n < 10 := hlt
      rw [trimmedDigits, Nat.mod_eq_of_lt hten, List.head?_cons]
      simp only [ne_eq, Option.some.injEq]
      omega
  | succ level ih =>
      rw [trimmedDigits]
      by_cases hsmall : n < tenTo (twoTo level)
      · rw [if_pos hsmall]
        exact ih hsmall hpos
      · have hquotient : 0 < n / tenTo (twoTo level) :=
          Nat.div_pos (Nat.not_lt.mp hsmall) (scale_pos level)
        rw [if_neg hsmall, List.head?_append_of_ne_nil _ (trimmedDigits_ne_nil _ _)]
        exact ih (halves_lt hlt).1 hquotient

/-- The digits of a positive number do not begin with zero. -/
theorem head?_digits {n : Nat} (h : 0 < n) : (digits n).head? ≠ some 0 :=
  trimmedDigits_head? (lt_scale_digitLevel n) h

/-- Digits that do not begin with zero, least significant first, are those of a number. -/
theorem natDigits_ofDigits (hlt : ∀ d ∈ ds, d < 10) (hhead : ds.head? ≠ some 0) :
    Nat.digits 10 (ofDigits 10 ds) = ds.reverse := by
  rw [ofDigits_eq_natOfDigits]
  apply Nat.digits_ofDigits 10 (by decide)
  · intro d hd
    exact hlt d (List.mem_reverse.mp hd)
  · intro hne hlast
    apply hhead
    rw [List.getLast_reverse] at hlast
    rw [List.head?_eq_some_head (by simpa using hne), hlast]

/-- **One numeral for each number.**  Digits that do not begin with zero are the digits of
the number they stand for. -/
theorem digits_ofDigits (hne : ds ≠ []) (hlt : ∀ d ∈ ds, d < 10) (hhead : ds.head? ≠ some 0) :
    digits (ofDigits 10 ds) = ds := by
  have hgiven := natDigits_ofDigits hlt hhead
  have hpos : 0 < ofDigits 10 ds := by
    rw [Nat.pos_iff_ne_zero]
    intro hzero
    rw [hzero, Nat.digits_zero] at hgiven
    exact hne (List.reverse_eq_nil_iff.mp hgiven.symm)
  have hwritten := natDigits_ofDigits (fun d hd => digits_lt hd) (head?_digits hpos)
  rw [ofDigits_digits, hgiven] at hwritten
  exact (List.reverse_injective hwritten).symm

theorem ofDigits_lt {radix : Nat} (hradix : 1 < radix) (hlt : ∀ d ∈ ds, d < radix) :
    ofDigits radix ds < radix ^ ds.length := by
  rw [ofDigits_eq_natOfDigits, ← List.length_reverse]
  apply Nat.ofDigits_lt_base_pow_length hradix
  intro d hd
  exact hlt d (List.mem_reverse.mp hd)

/-- Digits of one length are fixed by the number they stand for. -/
theorem ofDigits_injective (hlength : ds.length = es.length) (hds : ∀ d ∈ ds, d < 10)
    (hes : ∀ d ∈ es, d < 10) (h : ofDigits 10 ds = ofDigits 10 es) : ds = es := by
  rw [ofDigits_eq_natOfDigits, ofDigits_eq_natOfDigits] at h
  apply List.reverse_injective
  apply Nat.ofDigits_inj_of_len_eq (by decide : 1 < 10) _ _ _ h
  · simpa using hlength
  · intro d hd
    exact hds d (List.mem_reverse.mp hd)
  · intro d hd
    exact hes d (List.mem_reverse.mp hd)

/-! ## Characters -/

section Characters

variable {cs cs' : List Char}

/-- Characters of numerals are written digits. -/
theorem exists_map_digitChar (h : ∀ c ∈ cs, IsNumeralChar c) :
    ∃ ds : List Nat, (∀ d ∈ ds, d < 10) ∧ ds.map digitChar = cs := by
  induction cs with
  | nil => exact ⟨[], by simp, rfl⟩
  | cons c cs ih =>
      obtain ⟨⟨d, hd, rfl⟩, hcs⟩ := List.forall_mem_cons.mp h
      obtain ⟨ds, hds, rfl⟩ := ih hcs
      exact ⟨d :: ds, List.forall_mem_cons.mpr ⟨hd, hds⟩, rfl⟩

theorem digitsValue_map_digitChar (h : ∀ d ∈ ds, d < 10) :
    Literal.digitsValue (ds.map digitChar) = ofDigits 10 ds := by
  rw [Literal.digitsValue, filterMap_digitValue?_map_digitChar h]

/-- Of the ten digits only zero is written as zero. -/
theorem digitChar_eq_zero_iff {d : Nat} (h : d < 10) : digitChar d = '0' ↔ d = 0 := by
  have hall : ∀ d < 10, digitChar d = '0' ↔ d = 0 := by decide
  exact hall d h

/-- **One numeral for each number, in characters.** -/
theorem natChars_digitsValue (hne : cs ≠ []) (hchars : ∀ c ∈ cs, IsNumeralChar c)
    (hhead : cs.head? ≠ some '0') : natChars (Literal.digitsValue cs) = cs := by
  obtain ⟨ds, hlt, rfl⟩ := exists_map_digitChar hchars
  rw [digitsValue_map_digitChar hlt, natChars, digits_ofDigits _ hlt]
  · cases ds with
    | nil => simp
    | cons d ds =>
        have hd : d < 10 := hlt d List.mem_cons_self
        rw [List.map_cons, List.head?_cons, ne_eq, Option.some.injEq,
          digitChar_eq_zero_iff hd] at hhead
        simpa using hhead
  · simpa using hne

/-- The numeral of a positive number does not begin with zero. -/
theorem head?_natChars {n : Nat} (h : 0 < n) : (natChars n).head? ≠ some '0' := by
  have hhead := head?_digits h
  have hlt : ∀ d ∈ digits n, d < 10 := fun d hd => digits_lt hd
  rw [natChars]
  cases hdigits : digits n with
  | nil => simp
  | cons d ds =>
      rw [hdigits] at hhead hlt
      have hd : d < 10 := hlt d List.mem_cons_self
      rw [List.map_cons, List.head?_cons, ne_eq, Option.some.injEq, digitChar_eq_zero_iff hd]
      simpa using hhead

/-- The length of a numeral tells which power of ten the number is below. -/
theorem length_natChars_le_iff {n k : Nat} (hk : 0 < k) :
    (natChars n).length ≤ k ↔ n < 10 ^ k := by
  rw [natChars, List.length_map]
  rcases Nat.eq_zero_or_pos n with rfl | hpos
  · have hone : (digits 0).length = 1 := rfl
    have hpower : 0 < 10 ^ k := Nat.pow_pos (by decide)
    rw [hone]
    exact ⟨fun _ => hpower, fun _ => hk⟩
  · have hnatural := natDigits_ofDigits (fun d hd => digits_lt hd) (head?_digits hpos)
    rw [ofDigits_digits] at hnatural
    rw [← List.length_reverse, ← hnatural, Nat.digits_length_le_iff (by decide)]

theorem digitsValue_append (hcs : ∀ c ∈ cs, IsNumeralChar c)
    (hcs' : ∀ c ∈ cs', IsNumeralChar c) :
    Literal.digitsValue (cs ++ cs') =
      Literal.digitsValue cs * 10 ^ cs'.length + Literal.digitsValue cs' := by
  obtain ⟨ds, hds, rfl⟩ := exists_map_digitChar hcs
  obtain ⟨es, hes, rfl⟩ := exists_map_digitChar hcs'
  have hboth : ∀ d ∈ ds ++ es, d < 10 := List.forall_mem_append.mpr ⟨hds, hes⟩
  rw [← List.map_append, digitsValue_map_digitChar hboth, digitsValue_map_digitChar hds,
    digitsValue_map_digitChar hes, ofDigits_append, List.length_map]

theorem digitsValue_lt (h : ∀ c ∈ cs, IsNumeralChar c) :
    Literal.digitsValue cs < 10 ^ cs.length := by
  obtain ⟨ds, hds, rfl⟩ := exists_map_digitChar h
  rw [digitsValue_map_digitChar hds, List.length_map]
  exact ofDigits_lt (by decide) hds

/-- Numerals of one length are fixed by the number they stand for. -/
theorem digitsValue_injective (hlength : cs.length = cs'.length)
    (hcs : ∀ c ∈ cs, IsNumeralChar c) (hcs' : ∀ c ∈ cs', IsNumeralChar c)
    (h : Literal.digitsValue cs = Literal.digitsValue cs') : cs = cs' := by
  obtain ⟨ds, hds, rfl⟩ := exists_map_digitChar hcs
  obtain ⟨es, hes, rfl⟩ := exists_map_digitChar hcs'
  rw [digitsValue_map_digitChar hds, digitsValue_map_digitChar hes] at h
  rw [List.length_map, List.length_map] at hlength
  rw [ofDigits_injective hlength hds hes h]

/-- Ten divides a number exactly if its numeral ends in zero. -/
theorem ten_dvd_digitsValue_append {c : Char} (hcs : ∀ c ∈ cs, IsNumeralChar c)
    (hc : IsNumeralChar c) : 10 ∣ Literal.digitsValue (cs ++ [c]) ↔ c = '0' := by
  have hlast : ∀ c' ∈ [c], IsNumeralChar c' := by
    intro c' hc'
    rwa [List.mem_singleton.mp hc']
  obtain ⟨d, hd, rfl⟩ := hc
  have hvalue : Literal.digitsValue [digitChar d] = d := by
    have hsingle : Literal.digitsValue ([d].map digitChar) = ofDigits 10 [d] :=
      digitsValue_map_digitChar (by simpa using hd)
    simpa [ofDigits] using hsingle
  rw [digitsValue_append hcs hlast, hvalue, digitChar_eq_zero_iff hd, List.length_singleton]
  omega

end Characters

end DecimalCalc.Numeral
