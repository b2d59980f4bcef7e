import DecimalCalc.Proofs.Decimal.RationalValue
import DecimalCalc.Value.Comparison
import Mathlib.Order.Compare
/-!
# The order of numbers

Comparisons look at the sign of a difference, and this is the order of the rational numbers:
`order_total`.  So numbers in any forms are totally preordered, equal ones being those that
stand for one rational number.

Sorting goes by this order (`sort_pairwise`) and is stable: the forms of each number come out
as they went in (`filter_sort`).  They are a sorted part of the list already, and such a part
keeps its order.
-/

namespace DecimalCalc.Decimal

/-- What the sign of a relation means for rational numbers. -/
def Relation.Relates : Relation → ℚ → ℚ → Prop
  | less, x, y => x < y
  | atMost, x, y => x ≤ y
  | greater, x, y => y < x
  | atLeast, x, y => y ≤ x

variable (a b c : Decimal)

/-! ## Comparisons -/

theorem holds_iff (r : Relation) : r.holds a b = true ↔ r.Relates a.toRat b.toRat := by
  cases r with
  | less => exact less_iff a b
  | atMost => exact atMost_iff a b
  | greater => exact greater_iff a b
  | atLeast => exact atLeast_iff a b

theorem equal_eq_false_iff : a.equal b = false ↔ a.toRat ≠ b.toRat := by
  rw [← Bool.not_eq_true, equal_iff]

theorem less_eq_false_iff : a.less b = false ↔ b.toRat ≤ a.toRat := by
  rw [← Bool.not_eq_true, less_iff, not_lt]

/-- The comparison of two forms is the one of their numbers. -/
theorem compare_eq_cmp : a.compare b = cmp a.toRat b.toRat := by
  have hnegative : (a.sub b).isNegative = true ↔ a.toRat < b.toRat := less_iff a b
  have hpositive : (a.sub b).isPositive = true ↔ b.toRat < a.toRat := by
    rw [isPositive_iff, toRat_sub, sub_pos]
  rw [Decimal.compare]
  rcases lt_trichotomy a.toRat b.toRat with hlt | heq | hgt
  · rw [if_pos (hnegative.mpr hlt), hlt.cmp_eq_lt]
  · rw [if_neg (fun h => (hnegative.mp h).ne heq), if_neg (fun h => (hpositive.mp h).ne' heq),
      heq.cmp_eq_eq]
  · rw [if_neg (fun h => (hnegative.mp h).asymm hgt), if_pos (hpositive.mpr hgt),
      hgt.cmp_eq_gt]

/-- Of two numbers one is less, or they are equal, and only one of these. -/
theorem less_or_equal_or_greater :
    (a.less b = true ∧ a.equal b = false ∧ a.greater b = false) ∨
      (a.less b = false ∧ a.equal b = true ∧ a.greater b = false) ∨
      (a.less b = false ∧ a.equal b = false ∧ a.greater b = true) := by
  simp only [greater, less_iff, less_eq_false_iff, equal_iff, equal_eq_false_iff]
  rcases lt_trichotomy a.toRat b.toRat with hlt | heq | hgt
  · exact .inl ⟨hlt, hlt.ne, hlt.le⟩
  · exact .inr (.inl ⟨heq.ge, heq, heq.le⟩)
  · exact .inr (.inr ⟨hgt.le, hgt.ne', hgt⟩)

/-! ## Sorting -/

section Sorting

variable (ds : List Decimal)

/-- What a sort compares by: one number is not above the other. -/
theorem not_less_iff : (!b.less a) = true ↔ a.toRat ≤ b.toRat := by
  rw [Bool.not_eq_true', less_eq_false_iff]

theorem not_less_trans (h : (!b.less a) = true) (h' : (!c.less b) = true) :
    (!c.less a) = true := by
  rw [not_less_iff] at h h' ⊢
  exact h.trans h'

theorem not_less_total : (!b.less a || !a.less b) = true := by
  rw [Bool.or_eq_true, not_less_iff, not_less_iff]
  exact le_total a.toRat b.toRat

theorem sort_perm : (sort ds).Perm ds := List.mergeSort_perm ds _

/-- **Sorted numbers ascend.** -/
theorem sort_pairwise : (sort ds).Pairwise fun a b => a.toRat ≤ b.toRat := by
  have hsorted := List.pairwise_mergeSort not_less_trans not_less_total ds
  refine hsorted.imp ?_
  intro a b h
  exact (not_less_iff a b).mp h

/-- **Equal numbers keep their order.**  They are sorted already, so they are in the same
order in the sorted list; and there are no others, since that is a permutation. -/
theorem filter_sort (v : Decimal) :
    (sort ds).filter (fun a => a.equal v) = ds.filter fun a => a.equal v := by
  have hsame : (ds.filter fun a => a.equal v).Pairwise fun a b => (!b.less a) = true := by
    refine List.pairwise_iff_forall_sublist.mpr ?_
    intro a b h
    have hmem : ∀ d ∈ [a, b], d.toRat = v.toRat := by
      intro d hd
      exact (equal_iff d v).mp (List.mem_filter.mp (h.subset hd)).2
    rw [not_less_iff, hmem a (by simp), hmem b (by simp)]
  have hsublist : (ds.filter fun a => a.equal v).Sublist (sort ds) :=
    List.sublist_mergeSort not_less_trans not_less_total hsame List.filter_sublist
  have hfiltered := hsublist.filter fun a => a.equal v
  rw [List.filter_filter] at hfiltered
  simp only [Bool.and_self] at hfiltered
  have hlength := ((sort_perm ds).filter fun a => a.equal v).length_eq
  exact (hfiltered.eq_of_length hlength.symm).symm

end Sorting

/-! ## A total preorder -/

/-- **Numbers are compared as the rational numbers they stand for**, whatever their forms.  So
they are totally preordered: of `less`, `equal` and `greater` exactly one holds of two numbers,
and `less` is transitive.  A sorted list is a permutation in ascending order in which the forms
of one number stand as they did before. -/
theorem order_total :
    (∀ a b : Decimal, (a.equal b = true ↔ a.toRat = b.toRat) ∧
        ((!a.equal b) = true ↔ a.toRat ≠ b.toRat) ∧
        (a.less b = true ↔ a.toRat < b.toRat) ∧ (a.greater b = true ↔ b.toRat < a.toRat) ∧
        (a.atMost b = true ↔ a.toRat ≤ b.toRat) ∧ (a.atLeast b = true ↔ b.toRat ≤ a.toRat) ∧
        a.compare b = cmp a.toRat b.toRat) ∧
      (∀ (a b : Decimal) (r : Relation), ∃ holds, a.relatesTo r (.number b) = .ok holds ∧
        (holds = true ↔ r.Relates a.toRat b.toRat)) ∧
      (∀ a b : Decimal, (a.less b = true ∧ a.equal b = false ∧ a.greater b = false) ∨
        (a.less b = false ∧ a.equal b = true ∧ a.greater b = false) ∨
        (a.less b = false ∧ a.equal b = false ∧ a.greater b = true)) ∧
      (∀ a b c : Decimal, a.less b = true → b.less c = true → a.less c = true) ∧
      ∀ ds : List Decimal, (sort ds).Perm ds ∧
        ((sort ds).Pairwise fun a b => a.toRat ≤ b.toRat) ∧
        ∀ v : Decimal,
          (sort ds).filter (fun a => a.equal v) = ds.filter fun a => a.equal v := by
  refine ⟨?_, fun a b r => ⟨_, rfl, holds_iff a b r⟩, less_or_equal_or_greater, ?_,
    fun ds => ⟨sort_perm ds, sort_pairwise ds, filter_sort ds⟩⟩
  · intro a b
    refine ⟨equal_iff a b, ?_, less_iff a b, greater_iff a b, atMost_iff a b, atLeast_iff a b,
      compare_eq_cmp a b⟩
    rw [Bool.not_eq_true', equal_eq_false_iff]
  · intro a b c hab hbc
    rw [less_iff] at hab hbc ⊢
    exact hab.trans hbc

/-- A number between two others, and its three forms in a sorted list. -/
theorem order_total_between :
    less ⟨-1, 3⟩ ⟨30, -1⟩ = true ∧ less ⟨30, -1⟩ ⟨1, 1⟩ = true ∧ less ⟨-1, 3⟩ ⟨1, 1⟩ = true ∧
      (sort [⟨1, 1⟩, ⟨30, -1⟩, ⟨3, 0⟩, ⟨-1, 3⟩, ⟨300, -2⟩]).filter (fun a => a.equal ⟨3, 0⟩) =
        [⟨30, -1⟩, ⟨3, 0⟩, ⟨300, -2⟩] := by
  have hlow : less ⟨-1, 3⟩ ⟨30, -1⟩ = true := by decide
  have hhigh : less ⟨30, -1⟩ ⟨1, 1⟩ = true := by decide
  obtain ⟨-, -, -, htrans, hsort⟩ := order_total
  obtain ⟨-, -, hstable⟩ := hsort [⟨1, 1⟩, ⟨30, -1⟩, ⟨3, 0⟩, ⟨-1, 3⟩, ⟨300, -2⟩]
  refine ⟨hlow, hhigh, htrans _ _ _ hlow hhigh, (hstable ⟨3, 0⟩).trans ?_⟩
  decide

end DecimalCalc.Decimal
