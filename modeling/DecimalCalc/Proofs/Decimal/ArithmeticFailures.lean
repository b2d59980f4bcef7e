import DecimalCalc.Proofs.Decimal.IntegralPower
import DecimalCalc.Proofs.Decimal.PowerEnds
/-!
# Failures of arithmetic

Quotients, roots and powers can fail, whatever they are given as a precision and a rounding
mode.  `ArithmeticFailure` lists how: a precision or a rounding mode that is none, a divisor
that is zero, a root of a negative number or one that is not found, and the refusals of an
integral power.  The one fault among them is a numeral too long for a message.

`Decimal.power_computes` and `Decimal.divide_computes` say that the list is complete.  So
arithmetic on numbers never complains about an operand that is no number, nor about one that
is not there.
-/

namespace DecimalCalc

open Numeral

/-- The failures of arithmetic on numbers. -/
inductive ArithmeticFailure : Failure → Prop where
  | unwritten : ArithmeticFailure (.fault .numeralTooLong)
  | precision (shown : String) : ArithmeticFailure (.error (.invalidPrecision shown))
  | rounding (shown : String) : ArithmeticFailure (.error (.unknownRounding shown))
  | divisor : ArithmeticFailure (.error .divisionByZero)
  | root (shown : String) : ArithmeticFailure (.error (.negativeRoot shown))
  | search (limit : Int) : ArithmeticFailure (.error (.noConvergence limit))
  | exponent (shown : String) (limit : Int) :
      ArithmeticFailure (.error (.exponentTooLarge shown limit))
  | result (base power : String) (limit : Int) :
      ArithmeticFailure (.error (.resultTooLarge base power limit))

/-- An outcome is a result or a failure of arithmetic. -/
def Computes {α : Type} (x : Except Failure α) : Prop := ∀ f, x = .error f → ArithmeticFailure f

section Computes

variable {α β : Type}

theorem computes_iff_ends {x : Except Failure α} :
    Computes x ↔ Ends (fun _ => True) ArithmeticFailure x := by
  cases x with
  | ok a => exact iff_of_true nofun trivial
  | error f => exact ⟨fun h => h f rfl, fun h _ hf => Except.error.inj hf ▸ h⟩

theorem computes_ok (a : α) : Computes (.ok a : Except Failure α) := by
  intro f h
  cases h

theorem computes_error {f : Failure} (hf : ArithmeticFailure f) :
    Computes (.error f : Except Failure α) := by
  intro f' h
  cases h
  exact hf

theorem Computes.bind {x : Except Failure α} {f : α → Except Failure β} (hx : Computes x)
    (hf : ∀ a, Computes (f a)) : Computes (x >>= f) := by
  intro e h
  rcases bind_eq_error_iff.mp h with hfirst | ⟨a, -, hsecond⟩
  · exact hx e hfirst
  · exact hf a e hsecond

end Computes

/-! ## Precisions and rounding modes -/

theorem shownInt_computes (i : Int) : Computes (shownInt i) := by
  cases Decimal.shownInt_cases i with
  | inl hshown =>
      rw [hshown.2]
      exact computes_ok _
  | inr hlong =>
      rw [hlong.2]
      exact computes_error .unwritten

mutual

/-- Only an integer too long to be written keeps a value from being shown. -/
theorem Value.shown_computes (v : Value) : Computes v.shown := by
  cases v with
  | int i =>
      rw [shown]
      exact shownInt_computes i
  | list vs =>
      rw [shown]
      exact (shownList_computes vs).bind fun _ => computes_ok _
  | fraction num den =>
      rw [shown]
      refine (shownInt_computes num).bind fun _ => ?_
      exact (shownInt_computes den).bind fun _ => computes_ok _
  | none | bool | text | emptyTable | float | number | decimal | decimalSpecial
  | symbolicRatio | symbolicFloat | symbolic => exact computes_ok _

theorem Value.shownList_computes (vs : List Value) : Computes (shownList vs) := by
  cases vs with
  | nil => exact computes_ok _
  | cons v vs =>
      rw [shownList]
      refine (shown_computes v).bind fun _ => ?_
      exact (shownList_computes vs).bind fun _ => computes_ok _

end

theorem validatePrecision_computes (v : Value) : Computes (validatePrecision v) := by
  unfold validatePrecision
  split
  · next p =>
      by_cases hneg : p < 0
      · rw [if_pos hneg]
        exact computes_ok _
      · rw [if_neg hneg]
        exact (shownInt_computes p).bind fun shown => computes_error (.precision shown)
  · exact (Value.shown_computes _).bind fun shown => computes_error (.precision shown)

namespace Context

variable (ctx : Context)

theorem resolvePrecision_computes (v : Value) : Computes (ctx.resolvePrecision v) := by
  unfold resolvePrecision
  split
  · exact computes_ok _
  · exact validatePrecision_computes _

theorem resolveRounding_computes (v : Value) : Computes (ctx.resolveRounding v) := by
  unfold resolveRounding
  dsimp only
  split
  · exact computes_ok _
  · exact (Value.shown_computes _).bind fun shown => computes_error (.rounding shown)

theorem workingPrecision_computes (v : Value) : Computes (ctx.workingPrecision v) :=
  (ctx.resolvePrecision_computes v).bind fun _ => computes_ok _

end Context

/-! ## Quotients, roots and powers -/

namespace Decimal

variable {ctx : Context}

theorem divide_computes (a b : Decimal) (precision rounding : Value) :
    Computes (a.divide ctx b precision rounding) := by
  rw [divide]
  refine (ctx.resolvePrecision_computes precision).bind fun p => ?_
  refine (ctx.resolveRounding_computes rounding).bind fun mode => ?_
  by_cases hzero : b.isZero = true
  · rw [if_pos hzero]
    exact computes_error .divisor
  · rw [if_neg hzero]
    exact computes_ok _

theorem refineRoot_computes (n : Decimal) (working : Value) (left done : Nat) (x : Decimal) :
    Computes (n.refineRoot ctx working left done x).outcome := by
  refine computes_iff_ends.mpr (refineRoot_ends_of (D := fun _ => True)
    (Q := fun _ _ => True) (.search _) ?_ ?_ (fun _ _ _ _ _ => trivial) left done trivial)
  · exact fun x _ => computes_iff_ends.mp (n.divide_computes x working .none)
  · exact fun x y _ _ _ => computes_iff_ends.mp ((x.add y).divide_computes two working .none)

theorem sqrt_computes (n : Decimal) (precision : Value) :
    Computes (n.sqrt ctx precision).outcome := by
  by_cases hneg : n.isNegative = true
  · rw [sqrt, if_pos hneg]
    exact computes_error (.root _)
  by_cases hzero : n.isZero = true
  · rw [sqrt, if_neg hneg, if_pos hzero]
    exact computes_ok _
  · simp only [sqrt, if_neg hneg, if_neg hzero, Traced.outcome_bind, Traced.outcome_liftM]
    refine (ctx.workingPrecision_computes precision).bind fun working => ?_
    exact n.refineRoot_computes _ _ 0 _

theorem Bisection.step_computes (exponent : Decimal) (working : Int) (b : Bisection) :
    Computes (b.step ctx exponent working).outcome := by
  refine computes_iff_ends.mpr (step_ends_of (R := fun _ => True) (L := fun _ => True)
    (computes_iff_ends.mp (b.root.sqrt_computes _)) ?_ trivial trivial trivial ?_)
  · exact fun root _ => computes_iff_ends.mp (one.divide_computes root _ .none)
  · exact fun _ _ low high _ _ _ =>
      computes_iff_ends.mp ((low.add high).divide_computes two _ .none)

theorem powerBelowOne_computes (base exponent : Decimal) (working : Int) :
    Computes (powerBelowOne ctx base exponent working).outcome := by
  refine computes_iff_ends.mpr (powerBelowOne_ends_of (R := fun _ => True)
    (B := fun _ => True) ?_ (fun _ _ => trivial) ?_)
  · exact fun _ => computes_iff_ends.mp (base.sqrt_computes _)
  · exact fun b _ => computes_iff_ends.mp (b.step_computes exponent working)

theorem fractionalPower_computes (base : Decimal) (precision : Value) (halvings : Nat)
    (exponent : Decimal) :
    Computes (fractionalPower ctx base precision halvings exponent).outcome := by
  refine computes_iff_ends.mpr (fractionalPower_ends_of (X := fun _ => True)
    (W := fun _ => True) (computes_iff_ends.mp (ctx.workingPrecision_computes precision))
    ?_ ?_ (fun _ _ _ => trivial) halvings trivial)
  · exact fun e working _ _ => computes_iff_ends.mp (powerBelowOne_computes base e working)
  · exact fun e _ => computes_iff_ends.mp (e.divide_computes two _ .none)

theorem integralPower_computes (s : Settings) (base : Decimal) (power : Int) :
    Computes (integralPower s base power) := by
  by_cases hlimit : s.maxIntegerPower < power
  · rw [integralPower_of_lt hlimit]
    exact (shownInt_computes power).bind fun shown => computes_error (.exponent shown _)
  · rw [integralPower_of_le (Int.not_lt.mp hlimit)]
    split
    · exact computes_error (.result _ _ _)
    · exact computes_ok _

theorem positivePower_computes (base exponent : Decimal) (precision : Value) :
    Computes (positivePower ctx base exponent precision).outcome := by
  unfold positivePower positivePowerWith
  by_cases hinteger : exponent.isInteger = true
  · simp only [hinteger, if_true, Traced.outcome_ofExcept]
    exact integralPower_computes _ base _
  · simp only [hinteger]
    exact fractionalPower_computes base precision _ exponent

/-- **The failures of a power** are failures of arithmetic, under every precision. -/
theorem power_computes (base exponent : Decimal) (precision : Value) :
    Computes (base.power ctx exponent precision).outcome := by
  unfold power powerWith
  by_cases hzero : exponent.isZero = true
  · rw [if_pos hzero]
    exact computes_ok _
  by_cases hneg : exponent.isNegative = true
  · rw [if_neg hzero, if_pos hneg, Traced.outcome_bind]
    refine (positivePower_computes base exponent.neg precision).bind fun inverse => ?_
    exact one.divide_computes inverse precision .none
  · rw [if_neg hzero, if_neg hneg]
    exact positivePower_computes base exponent precision

end Decimal

end DecimalCalc
