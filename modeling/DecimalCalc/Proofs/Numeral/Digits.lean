import DecimalCalc.Numeral.Digits
import DecimalCalc.Text.Character
import Mathlib.Algebra.Group.Nat.Defs
/-!
# Digits and the numbers they stand for

Writing a number down and reading it back gives the number (`ofDigits_digits`).  The
number is split at the middle power of ten again and again, so the induction is on the
level of splitting: a number below `10 ^ 2 ^ level` has a quotient and a remainder below
`10 ^ 2 ^ (level - 1)`.  The level that is taken is high enough (`lt_scale_digitLevel`).

What holds of the code points of all digits, of whatever script, holds of every digit
(`forall_isDigit`); so a digit is no blank, and it has one case.
-/

namespace DecimalCalc.Numeral

open Text

/-- Digits that are read after a number multiply it by their power of the radix. -/
theorem foldl_digits (radix n : Nat) (ds : List Nat) :
    ds.foldl (fun n d => n * radix + d) n = n * radix ^ ds.length + ofDigits radix ds := by
  induction ds generalizing n with
  | nil => simp [ofDigits]
  | cons d ds ih =>
      have hcons : ofDigits radix (d :: ds) = d * radix ^ ds.length + ofDigits radix ds := by
        rw [ofDigits, List.foldl_cons, Nat.zero_mul, Nat.zero_add, ih]
      rw [List.foldl_cons, ih, hcons, List.length_cons, Nat.pow_succ, Nat.add_mul,
        Nat.mul_assoc, Nat.mul_comm radix, Nat.add_assoc]

theorem ofDigits_append (radix : Nat) (ds es : List Nat) :
    ofDigits radix (ds ++ es) = ofDigits radix ds * radix ^ es.length + ofDigits radix es := by
  rw [ofDigits, List.foldl_append]
  exact foldl_digits radix _ es

/-- Zeros on the left change nothing. -/
theorem ofDigits_replicate_zero_append (radix count : Nat) (ds : List Nat) :
    ofDigits radix (List.replicate count 0 ++ ds) = ofDigits radix ds := by
  induction count with
  | zero => rfl
  | succ count ih =>
      rw [List.replicate_succ, List.cons_append, ← ih]
      simp [ofDigits]

/-! ## The levels of splitting -/

/-- The scale of a level is the square of the one before. -/
theorem scale_succ (level : Nat) :
    tenTo (twoTo (level + 1)) = tenTo (twoTo level) * tenTo (twoTo level) := by
  simp only [tenTo, twoTo, Nat.pow_eq]
  rw [← Nat.pow_add, Nat.pow_succ, Nat.mul_two]

theorem tenTo_pos (n : Nat) : 0 < tenTo n := Nat.pow_pos (by decide)

theorem tenTo_le_tenTo {m n : Nat} (h : m ≤ n) : tenTo m ≤ tenTo n :=
  Nat.pow_le_pow_right (by decide) h

theorem scale_pos (level : Nat) : 0 < tenTo (twoTo level) := tenTo_pos _

theorem length_paddedDigits (level n : Nat) :
    (paddedDigits level n).length = twoTo level := by
  induction level generalizing n with
  | zero => rfl
  | succ level ih =>
      rw [paddedDigits, List.length_append, ih, ih]
      simp only [twoTo, Nat.pow_eq]
      omega

/-- The two halves of a number below the scale of a level are below the one before. -/
theorem halves_lt {level n : Nat} (h : n < tenTo (twoTo (level + 1))) :
    n / tenTo (twoTo level) < tenTo (twoTo level) ∧
      n % tenTo (twoTo level) < tenTo (twoTo level) := by
  rw [scale_succ] at h
  exact ⟨Nat.div_lt_of_lt_mul h, Nat.mod_lt n (scale_pos level)⟩

theorem ofDigits_paddedDigits {level n : Nat} (h : n < tenTo (twoTo level)) :
    ofDigits 10 (paddedDigits level n) = n := by
  induction level generalizing n with
  | zero =>
      have hten : n < 10 := h
      simp [paddedDigits, ofDigits, Nat.mod_eq_of_lt hten]
  | succ level ih =>
      obtain ⟨hquotient, hremainder⟩ := halves_lt h
      rw [paddedDigits, ofDigits_append, ih hquotient, ih hremainder, length_paddedDigits]
      exact Nat.div_add_mod' n _

theorem ofDigits_trimmedDigits {level n : Nat} (h : n < tenTo (twoTo level)) :
    ofDigits 10 (trimmedDigits level n) = n := by
  induction level generalizing n with
  | zero =>
      have hten : n < 10 := h
      simp [trimmedDigits, ofDigits, Nat.mod_eq_of_lt hten]
  | succ level ih =>
      obtain ⟨hquotient, hremainder⟩ := halves_lt h
      rw [trimmedDigits]
      by_cases hsmall : n < tenTo (twoTo level)
      · rw [if_pos hsmall, ih hsmall]
      · rw [if_neg hsmall, ofDigits_append, ih hquotient, ofDigits_paddedDigits hremainder,
          length_paddedDigits]
        exact Nat.div_add_mod' n _

/-- **The level is high enough.**  Three bits are less than a digit, and the bits of a
number are counted before the level is taken. -/
theorem lt_scale_digitLevel (n : Nat) : n < tenTo (twoTo (digitLevel n)) := by
  have hbits : n < 2 ^ (n.log2 + 1) := Nat.lt_log2_self
  have hlevel : n.log2 / 3 + 1 < 2 ^ digitLevel n := Nat.lt_log2_self
  calc
    n < 2 ^ (n.log2 + 1) := hbits
    _ ≤ 2 ^ (3 * (n.log2 / 3 + 1)) := Nat.pow_le_pow_right (by decide) (by omega)
    _ = 8 ^ (n.log2 / 3 + 1) := Nat.pow_mul 2 3 _
    _ ≤ 10 ^ (n.log2 / 3 + 1) := Nat.pow_le_pow_left (by decide) _
    _ ≤ 10 ^ 2 ^ digitLevel n := Nat.pow_le_pow_right (by decide) (Nat.le_of_lt hlevel)

/-- **The digits of a number stand for it.** -/
theorem ofDigits_digits (n : Nat) : ofDigits 10 (digits n) = n :=
  ofDigits_trimmedDigits (lt_scale_digitLevel n)

/-! ## Each digit -/

theorem paddedDigits_lt {level n d : Nat} (h : d ∈ paddedDigits level n) : d < 10 := by
  induction level generalizing n with
  | zero =>
      rw [paddedDigits, List.mem_singleton] at h
      omega
  | succ level ih =>
      rw [paddedDigits, List.mem_append] at h
      rcases h with h | h
      · exact ih h
      · exact ih h

theorem trimmedDigits_lt {level n d : Nat} (h : d ∈ trimmedDigits level n) : d < 10 := by
  induction level generalizing n with
  | zero =>
      rw [trimmedDigits, List.mem_singleton] at h
      omega
  | succ level ih =>
      rw [trimmedDigits] at h
      split at h
      · exact ih h
      · rcases List.mem_append.mp h with hhigh | hlow
        · exact ih hhigh
        · exact paddedDigits_lt hlow

theorem digits_lt {n d : Nat} (h : d ∈ digits n) : d < 10 := trimmedDigits_lt h

theorem trimmedDigits_ne_nil (level n : Nat) : trimmedDigits level n ≠ [] := by
  induction level generalizing n with
  | zero => exact List.cons_ne_nil _ _
  | succ level ih =>
      rw [trimmedDigits]
      split
      · exact ih n
      · exact List.append_ne_nil_of_left_ne_nil (ih _) _

theorem natChars_ne_nil (n : Nat) : natChars n ≠ [] := by
  rw [natChars, ne_eq, List.map_eq_nil_iff]
  exact trimmedDigits_ne_nil _ n

/-! ## Characters -/

/-- The character of a digit has its value. -/
theorem digitValue?_digitChar {d : Nat} (h : d < 10) : digitValue? (digitChar d) = some d := by
  have hall : ∀ d < 10, digitValue? (digitChar d) = some d := by decide
  exact hall d h

theorem filterMap_digitValue?_map_digitChar {ds : List Nat} (h : ∀ d ∈ ds, d < 10) :
    (ds.map digitChar).filterMap digitValue? = ds := by
  induction ds with
  | nil => rfl
  | cons d ds ih =>
      rw [List.forall_mem_cons] at h
      rw [List.map_cons, List.filterMap_cons_some (digitValue?_digitChar h.1), ih h.2]

/-- The characters of a numeral: the ten digits of the decimal numerals that are written. -/
def IsNumeralChar (c : Char) : Prop := ∃ d < 10, c = digitChar d

/-- What holds of the ten digits holds of the characters of numerals. -/
theorem IsNumeralChar.forall_of {P : Char → Prop} (h : ∀ d < 10, P (digitChar d)) {c : Char}
    (hc : IsNumeralChar c) : P c := by
  obtain ⟨d, hd, rfl⟩ := hc
  exact h d hd

theorem isNumeralChar_of_mem_natChars {n : Nat} {c : Char} (h : c ∈ natChars n) :
    IsNumeralChar c := by
  obtain ⟨d, hd, rfl⟩ := List.mem_map.mp h
  exact ⟨d, digits_lt hd, rfl⟩

end DecimalCalc.Numeral

/-! ## Digits of every script -/

namespace DecimalCalc.Text

/-- A digit is within a run of ten. -/
theorem exists_zeroDigit {c : Char} (h : isDigit c = true) :
    ∃ start ∈ zeroDigits, ∃ n < 10, c.toNat = start + n := by
  unfold isDigit digitValue? at h
  split at h
  · next hascii =>
      have hlow : 0x30 ≤ c.toNat := hascii.1
      have hhigh : c.toNat ≤ 0x39 := hascii.2
      exact ⟨0x30, by decide, c.toNat - 0x30, by omega, by omega⟩
  · split at h
    · cases h
    · rw [Option.isSome_map, List.find?_isSome] at h
      obtain ⟨start, hstart, hrun⟩ := h
      simp only [Bool.and_eq_true, decide_eq_true_eq] at hrun
      exact ⟨start, hstart, c.toNat - start, by omega, by omega⟩

theorem digitValue?_lt {c : Char} {d : Nat} (h : digitValue? c = some d) : d < 10 := by
  unfold digitValue? at h
  split at h
  · next hascii =>
      have hhigh : c.toNat ≤ 0x39 := hascii.2
      have hd := Option.some.inj h
      omega
  · split at h
    · cases h
    · obtain ⟨start, hfind, rfl⟩ := Option.map_eq_some_iff.mp h
      have hrun := List.find?_some hfind
      simp only [Bool.and_eq_true, decide_eq_true_eq] at hrun
      omega

/-- What holds of the code points of all digits holds of a digit. -/
theorem forall_isDigit {P : Nat → Prop} (hP : ∀ start ∈ zeroDigits, ∀ n < 10, P (start + n))
    {c : Char} (h : isDigit c = true) : P c.toNat := by
  obtain ⟨start, hstart, n, hn, hc⟩ := exists_zeroDigit h
  rw [hc]
  exact hP start hstart n hn

/-- A digit is not a character that is none. -/
theorem ne_of_isDigit {c d : Char} (hc : isDigit c = true) (hd : isDigit d = false) : c ≠ d := by
  rintro rfl
  rw [hc] at hd
  cases hd

theorem isBlank_of_isDigit {c : Char} (h : isDigit c = true) : isBlank c = false :=
  forall_isDigit (P := fun n => ((0x09 ≤ n && n ≤ 0x0D) || (0x1C ≤ n && n ≤ 0x20) || n == 0x85 ||
    n == 0xA0 || n == 0x1680 || (0x2000 ≤ n && n ≤ 0x200A) || n == 0x2028 || n == 0x2029 ||
    n == 0x202F || n == 0x205F || n == 0x3000) = false) (by decide +kernel) h

/-- A digit has one case. -/
theorem toLower_of_isDigit {c : Char} (h : isDigit c = true) : c.toLower = c := by
  have hletter : ¬ (65 ≤ c.toNat ∧ c.toNat ≤ 90) :=
    forall_isDigit (P := fun n => ¬ (65 ≤ n ∧ n ≤ 90)) (by decide +kernel) h
  unfold Char.toLower
  exact dif_neg hletter

end DecimalCalc.Text
