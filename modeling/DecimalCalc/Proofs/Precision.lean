import DecimalCalc.Proofs.Outcome
import DecimalCalc.Settings
/-!
# Settled precisions and rounding modes

A precision that a request settles on is a negative integer (`Context.resolvePrecision_neg`),
and such an integer is settled as itself again, as a rounding mode is by its name.  A
rounding mode that is left out, or is a text, is settled or refused without a fault.
-/

namespace DecimalCalc

theorem validatePrecision_neg {v : Value} {p : Int} (h : validatePrecision v = .ok p) : p < 0 := by
  unfold validatePrecision at h
  split at h
  · next p' =>
      by_cases hneg : p' < 0
      · rw [if_pos hneg] at h
        cases h
        exact hneg
      · rw [if_neg hneg] at h
        obtain ⟨_, -, h⟩ := bind_eq_ok_iff.mp h
        cases h
  · obtain ⟨_, -, h⟩ := bind_eq_ok_iff.mp h
    cases h

theorem validatePrecision_int {p : Int} (h : p < 0) : validatePrecision (.int p) = .ok p := by
  simp only [validatePrecision, if_pos h]
  rfl

/-- What is accepted as a precision is the integer that it is. -/
theorem eq_int_of_validatePrecision {v : Value} {p : Int} (h : validatePrecision v = .ok p) :
    v = .int p := by
  unfold validatePrecision at h
  split at h
  · next n =>
      by_cases hneg : n < 0
      · rw [if_pos hneg] at h
        cases h
        rfl
      · rw [if_neg hneg] at h
        obtain ⟨_, -, h⟩ := bind_eq_ok_iff.mp h
        cases h
  · obtain ⟨_, -, h⟩ := bind_eq_ok_iff.mp h
    cases h

theorem eq_of_validatePrecision_int {p p' : Int} (h : validatePrecision (.int p) = .ok p') :
    p' = p := (Value.int.inj (eq_int_of_validatePrecision h)).symm

theorem Context.resolvePrecision_neg {ctx : Context} (hctx : ctx.precision < 0) {v : Value}
    {p : Int} (h : ctx.resolvePrecision v = .ok p) : p < 0 := by
  unfold resolvePrecision at h
  split at h
  · cases h
    exact hctx
  · exact validatePrecision_neg h

/-- A precision that was settled is settled as itself again. -/
theorem Context.resolvePrecision_int (ctx : Context) {p : Int} (h : p < 0) :
    ctx.resolvePrecision (.int p) = .ok p := validatePrecision_int h

/-- A precision that is left out or negative is settled. -/
theorem Context.resolvePrecision_ok (ctx : Context) (hctx : ctx.precision < 0) {v : Value}
    (hv : v = .none ∨ ∃ p, p < 0 ∧ v = .int p) :
    ∃ p, p < 0 ∧ ctx.resolvePrecision v = .ok p := by
  obtain rfl | ⟨p, hneg, rfl⟩ := hv
  · exact ⟨ctx.precision, hctx, rfl⟩
  · exact ⟨p, hneg, ctx.resolvePrecision_int hneg⟩

/-- A rounding mode is settled by its name. -/
theorem Context.resolveRounding_name (ctx : Context) (mode : Rounding) :
    ctx.resolveRounding (.text mode.name) = .ok mode := by
  cases mode <;> rfl

/-- The rounding mode that is left out is the one of the settings. -/
theorem Context.resolveRounding_default {ctx : Context} {mode : Rounding}
    (h : ctx.settings.rounding = mode.name) : ctx.resolveRounding .none = .ok mode := by
  rw [← ctx.resolveRounding_name mode, ← h]
  rfl

theorem Context.resolveRounding_text (ctx : Context) (name : String) :
    Faultless (fun _ => True) (ctx.resolveRounding (.text name)) := by
  unfold resolveRounding
  dsimp only
  cases Rounding.ofName? name with
  | some mode => exact trivial
  | none => exact trivial

/-- The rounding mode of the settings is a text. -/
theorem Context.resolveRounding_none (ctx : Context) :
    Faultless (fun _ => True) (ctx.resolveRounding .none) :=
  ctx.resolveRounding_text ctx.settings.rounding

theorem Context.resolveRounding_faultless (ctx : Context) {v : Value}
    (hv : v = .none ∨ ∃ mode : Rounding, v = .text mode.name) :
    Faultless (fun _ => True) (ctx.resolveRounding v) := by
  obtain rfl | ⟨mode, rfl⟩ := hv
  · exact ctx.resolveRounding_none
  · exact ctx.resolveRounding_text mode.name

end DecimalCalc
