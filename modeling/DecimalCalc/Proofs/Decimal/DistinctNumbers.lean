import DecimalCalc.Proofs.Decimal.NormalForm
import Mathlib.Data.Finset.Card
/-!
# Sets of numbers

A set files a number under the parts of its normal form, and compares it with the elements
whose keys have the same hash.  Keys are the same exactly if the numbers are equal
(`key_eq_iff`), so the hash function does not show: a set holds the first form of each
number that was added, however its keys are hashed (`map_normalize_collect`), and these are
as many as there are rational numbers among the forms (`length_distinct`).
-/

namespace DecimalCalc.Decimal

/-- What a number is filed under in a set: the parts of its normal form. -/
def key (a : Decimal) : Int × Int := (a.normalize.coefficient, a.normalize.exponent)

/-- Whether a set holds a number: it is compared with the elements whose keys have its
hash. -/
def isHeld (hash : Int × Int → Int) (set : List Decimal) (a : Decimal) : Bool :=
  set.any fun b => hash b.key == hash a.key && b.equal a

/-- The set of some numbers, in the order in which they are added to it. -/
def collect (hash : Int × Int → Int) (ds : List Decimal) : List Decimal :=
  ds.foldl (fun set a => if isHeld hash set a then set else set ++ [a]) []

/-! ## Keys -/

theorem equal_iff_normalize (a b : Decimal) : a.equal b = true ↔ a.normalize = b.normalize := by
  rw [equal_iff, normalize_eq_iff]

/-- **Keys agree with equality.** -/
theorem key_eq_iff (a b : Decimal) : a.key = b.key ↔ a.equal b = true := by
  rw [equal_iff_normalize, key, key, Prod.mk.injEq, ← Decimal.mk.injEq]

/-- Equal numbers have the same hash, so a set holds a number if it holds any form of it. -/
theorem isHeld_iff (hash : Int × Int → Int) (set : List Decimal) (a : Decimal) :
    isHeld hash set a = true ↔ a.normalize ∈ set.map normalize := by
  rw [isHeld, List.any_eq_true, List.mem_map]
  constructor
  · intro h
    obtain ⟨b, hb, hfound⟩ := h
    have hequal : b.equal a = true := (Bool.and_eq_true_iff.mp hfound).2
    exact ⟨b, hb, (equal_iff_normalize b a).mp hequal⟩
  · intro h
    obtain ⟨b, hb, hnormal⟩ := h
    have hequal : b.equal a = true := (equal_iff_normalize b a).mpr hnormal
    have hkey : b.key = a.key := (key_eq_iff b a).mpr hequal
    refine ⟨b, hb, ?_⟩
    rw [hkey, hequal, beq_self_eq_true, Bool.and_true]

/-! ## Elements -/

/-- One more number is a new element unless a form of it came before. -/
theorem eraseDups_append_singleton (ds : List Decimal) (a : Decimal) :
    (ds ++ [a]).eraseDups = if a ∈ ds then ds.eraseDups else ds.eraseDups ++ [a] := by
  rw [List.eraseDups_append]
  by_cases h : a ∈ ds
  · have hknown : [a].removeAll ds = [] := by simp [List.removeAll, h]
    rw [if_pos h, hknown, List.eraseDups_nil, List.append_nil]
  · have hnew : [a].removeAll ds = [a] := by simp [List.removeAll, h]
    rw [if_neg h, hnew]
    rfl

theorem nodup_eraseDups (ds : List Decimal) : ds.eraseDups.Nodup := by
  induction ds using List.reverseRecOn with
  | nil => exact List.nodup_nil
  | append_singleton ds a ih =>
      rw [eraseDups_append_singleton]
      split
      · exact ih
      · next h =>
          rw [List.nodup_append_comm, List.singleton_append, List.nodup_cons]
          exact ⟨fun hmem => h (List.mem_eraseDups.mp hmem), ih⟩

/-- **A set holds the different numbers in the order of their first forms**, whatever the
hash function, by induction on the numbers that were added. -/
theorem map_normalize_collect (hash : Int × Int → Int) (ds : List Decimal) :
    (collect hash ds).map normalize = distinct ds := by
  induction ds using List.reverseRecOn with
  | nil => rfl
  | append_singleton ds a ih =>
      have hstep : collect hash (ds ++ [a]) =
          if isHeld hash (collect hash ds) a then collect hash ds
          else collect hash ds ++ [a] := by
        rw [collect, List.foldl_append]
        rfl
      have hheld : isHeld hash (collect hash ds) a = true ↔ a.normalize ∈ ds.map normalize := by
        rw [isHeld_iff, ih, distinct, List.mem_eraseDups]
      rw [hstep, distinct, List.map_append, List.map_singleton, eraseDups_append_singleton]
      by_cases hmem : a.normalize ∈ ds.map normalize
      · rw [if_pos (hheld.mpr hmem), if_pos hmem, ih, distinct]
      · rw [if_neg (fun h => hmem (hheld.mp h)), if_neg hmem, List.map_append, ih, distinct,
          List.map_singleton]

/-- The different numbers are as many as the rational numbers that their forms stand for: the
elements are normal forms, and of these no two stand for one number. -/
theorem length_distinct (ds : List Decimal) :
    (distinct ds).length = (ds.map toRat).toFinset.card := by
  have hnormal : ∀ a ∈ distinct ds, a.IsNormal := by
    intro a ha
    obtain ⟨b, -, rfl⟩ := List.mem_map.mp (List.mem_eraseDups.mp ha)
    exact b.normalize_isNormal
  have hnodup : ((distinct ds).map toRat).Nodup := by
    refine List.Nodup.map_on ?_ (nodup_eraseDups _)
    intro a ha b hb h
    exact (hnormal a ha).eq_of_toRat_eq (hnormal b hb) h
  have hvalues : ((distinct ds).map toRat).toFinset = (ds.map toRat).toFinset := by
    ext v
    simp only [distinct, List.mem_toFinset, List.mem_map, List.mem_eraseDups,
      exists_exists_and_eq_and, toRat_normalize]
  rw [← hvalues, List.toFinset_card_of_nodup hnodup, List.length_map]

/-! ## Canonical forms -/

/-- **Normal forms are canonical.**  Normalizing keeps the number and leads to a normal form,
where it stops; two numbers are equal exactly if they have one normal form, which is to say
one key.  So a set of numbers, with any hash function for its keys, has as many elements as
there are rational numbers among the forms. -/
theorem normalize_canonical :
    (∀ a : Decimal, a.normalize.toRat = a.toRat ∧ a.normalize.IsNormal ∧
        a.normalize.normalize = a.normalize) ∧
      (∀ a b : Decimal, (a.equal b = true ↔ a.normalize = b.normalize) ∧
        (a.key = b.key ↔ a.equal b = true)) ∧
      ∀ (hash : Int × Int → Int) (ds : List Decimal),
        (collect hash ds).map normalize = distinct ds ∧
          (collect hash ds).length = (ds.map toRat).toFinset.card := by
  refine ⟨fun a => ⟨toRat_normalize a, normalize_isNormal a, normalize_normalize a⟩,
    fun a b => ⟨equal_iff_normalize a b, key_eq_iff a b⟩, ?_⟩
  intro hash ds
  have hcollect := map_normalize_collect hash ds
  refine ⟨hcollect, ?_⟩
  rw [← length_distinct, ← hcollect, List.length_map]

/-- Five forms of two numbers, under a hash function that keeps no keys apart. -/
example : collect (fun _ => 0) [⟨10, -1⟩, one, ⟨0, 5⟩, ⟨100, -2⟩, zero] = [⟨10, -1⟩, ⟨0, 5⟩] := by
  decide

end DecimalCalc.Decimal
