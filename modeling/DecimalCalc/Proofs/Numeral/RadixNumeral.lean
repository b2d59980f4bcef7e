import DecimalCalc.Proofs.Numeral.LeadingDigit
import DecimalCalc.Proofs.Numeral.RadixReading
/-!
# Numerals in a radix

The digits of a number in a radix are written by dividing again and again, those in radix ten by
splitting the number; both are the digits of the number, most significant first
(`numeralDigits_eq`).  So no shorter digits stand for it (`shortest_numeralDigits`).

Read again in the radix, the character of a digit is this digit (`radixDigit?_digitChar`).  So
digits are read as what they stand for, in every piece of them and with a minus before them:
`readLongInteger?_numeral`.
-/

namespace DecimalCalc.Numeral

open Text

variable {radix n : Nat} {ds : List Nat}

/-! ## Writing -/

/-- The digits that are written for a natural number in a radix. -/
def numeralDigits (radix n : Nat) : List Nat :=
  if radix = 10 then digits n else radixDigits radix n

/-- The digits of a positive number are written in front of those that are known. -/
theorem radixDigitsBefore_eq (hradix : 1 < radix) (hn : 0 < n) (known : List Nat) :
    radixDigitsBefore radix n known = (Nat.digits radix n).reverse ++ known := by
  fun_induction radixDigitsBefore radix n known with
  | case1 n known h ih =>
      have hquotient : 0 < n / radix := Nat.div_pos h.2 (by omega)
      rw [ih hquotient, Nat.digits_def' hradix hn, List.reverse_cons, List.append_assoc]
      rfl
  | case2 n known h =>
      rw [Nat.digits_of_lt radix n hn.ne' (by omega)]
      rfl

/-- The digits in radix ten are those of `Nat.digits`, from the other end. -/
theorem digits_eq_reverse (hn : 0 < n) : digits n = (Nat.digits 10 n).reverse := by
  have hnatural := natDigits_ofDigits (fun d hd => digits_lt hd) (head?_digits hn)
  rw [ofDigits_digits] at hnatural
  rw [hnatural, List.reverse_reverse]

theorem numeralDigits_zero (radix : Nat) : numeralDigits radix 0 = [0] := by
  unfold numeralDigits
  split
  · rfl
  · rw [radixDigits, radixDigitsBefore, if_neg (by omega)]

/-- **What is written** of a positive number are its digits, most significant first. -/
theorem numeralDigits_eq (hradix : 1 < radix) (hn : 0 < n) :
    numeralDigits radix n = (Nat.digits radix n).reverse := by
  unfold numeralDigits
  split
  · next hten =>
      subst hten
      exact digits_eq_reverse hn
  · rw [radixDigits, radixDigitsBefore_eq hradix hn, List.append_nil]

/-- Digits of a radix that stand for a number, and than which no others are fewer. -/
structure ShortestDigits (radix n : Nat) (ds : List Nat) : Prop where
  ne_nil : ds ≠ []
  lt : ∀ d ∈ ds, d < radix
  value : ofDigits radix ds = n
  leading : ds = [0] ∨ ds.head? ≠ some 0
  shortest : ∀ es : List Nat, es ≠ [] → (∀ d ∈ es, d < radix) → ofDigits radix es = n →
    ds.length ≤ es.length

/-- **The digits that are written are the shortest.** -/
theorem shortest_numeralDigits (hradix : 1 < radix) (n : Nat) :
    ShortestDigits radix n (numeralDigits radix n) := by
  rcases Nat.eq_zero_or_pos n with rfl | hn
  · rw [numeralDigits_zero]
    refine ⟨List.cons_ne_nil _ _, ?_, by simp [ofDigits], .inl rfl, ?_⟩
    · intro d hd
      rw [List.mem_singleton.mp hd]
      omega
    · intro es hes _ _
      exact List.length_pos_iff.mpr hes
  · rw [numeralDigits_eq hradix hn]
    refine ⟨?_, ?_, ?_, .inr ?_, ?_⟩
    · rw [ne_eq, List.reverse_eq_nil_iff]
      exact Nat.digits_ne_nil_iff_ne_zero.mpr hn.ne'
    · intro d hd
      exact Nat.digits_lt_base hradix (List.mem_reverse.mp hd)
    · rw [ofDigits_eq_natOfDigits, List.reverse_reverse, Nat.ofDigits_digits]
    · have hne : Nat.digits radix n ≠ [] := Nat.digits_ne_nil_iff_ne_zero.mpr hn.ne'
      rw [List.head?_reverse, List.getLast?_eq_some_getLast hne, ne_eq, Option.some.injEq]
      exact Nat.getLast_digit_ne_zero radix hn.ne'
    · intro es _ hlt hvalue
      rw [List.length_reverse, Nat.digits_length_le_iff hradix, ← hvalue]
      exact ofDigits_lt hradix hlt

/-! ## Reading what is written -/

/-- The character of a digit has its value in every radix that has the digit. -/
theorem radixDigit?_digitChar {d : Nat} (hradix : radix ≤ 36) (hd : d < radix) :
    radixDigit? radix (digitChar d) = some d := by
  have hall : ∀ d < 36, radixDigit? 36 (digitChar d) = some d := by decide
  obtain ⟨hvalue, -⟩ := Option.filter_eq_some_iff.mp (hall d (by omega))
  exact Option.filter_eq_some_iff.mpr ⟨hvalue, by simpa using hd⟩

theorem isRadixDigit_of_mem_map (hradix : radix ≤ 36) (hds : ∀ d ∈ ds, d < radix) :
    ∀ c ∈ ds.map digitChar, IsRadixDigit radix c := by
  intro c hc
  obtain ⟨d, hd, rfl⟩ := List.mem_map.mp hc
  exact Option.isSome_iff_exists.mpr ⟨d, radixDigit?_digitChar hradix (hds d hd)⟩

theorem radixValue_map_digitChar (hradix : radix ≤ 36) (hds : ∀ d ∈ ds, d < radix) :
    radixValue radix (ds.map digitChar) = ofDigits radix ds := by
  have hsame : (ds.map digitChar).filterMap (radixDigit? radix) = ds := by
    induction ds with
    | nil => rfl
    | cons d ds ih =>
        obtain ⟨hd, hrest⟩ := List.forall_mem_cons.mp hds
        rw [List.map_cons, List.filterMap_cons_some (radixDigit?_digitChar hradix hd), ih hrest]
  rw [radixValue, hsame]

/-- **A numeral is read as the integer it was written for**, however long it is. -/
theorem readLongInteger?_numeral (hradix : radix ≤ 36) (hne : ds ≠ [])
    (hds : ∀ d ∈ ds, d < radix) (negative : Bool) :
    readLongInteger? radix ((if negative then ['-'] else []) ++ ds.map digitChar) =
      some (if negative then -(ofDigits radix ds : Int) else ofDigits radix ds) := by
  have hnil : ds.map digitChar ≠ [] := by rwa [ne_eq, List.map_eq_nil_iff]
  rw [readLongInteger?_of_digits hnil (isRadixDigit_of_mem_map hradix hds),
    radixValue_map_digitChar hradix hds]

end DecimalCalc.Numeral
