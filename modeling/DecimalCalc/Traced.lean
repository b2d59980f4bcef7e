import DecimalCalc.Log.Event
/-!
# Traced computations

A traced computation has an outcome, a value or a failure, and the events it
reported until then.  The outcome of a sequence is the sequence of the outcomes
(`outcome_bind`), so what a computation yields can be reasoned about as if
nothing were reported.
-/

namespace DecimalCalc

/-- A computation that reports events. -/
structure Traced (α : Type) where
  events : List Event
  outcome : Except Failure α

namespace Traced

variable {α β : Type}

/-- A computation that reports nothing. -/
def ofExcept (x : Except Failure α) : Traced α := ⟨[], x⟩

/-- The report of one event. -/
def report (event : Event) : Traced Unit := ⟨[event], .ok ()⟩

/-- One computation after another; a failure ends the sequence. -/
def andThen (x : Traced α) (f : α → Traced β) : Traced β :=
  match x.outcome with
  | .ok a =>
    let y := f a
    ⟨x.events ++ y.events, y.outcome⟩
  | .error e => ⟨x.events, .error e⟩

instance : Monad Traced where
  pure a := ofExcept (.ok a)
  bind := andThen

instance : MonadLift (Except Failure) Traced where
  monadLift := ofExcept

/-- A computation that fails. -/
def fail (failure : Failure) : Traced α := ofExcept (.error failure)

@[simp] theorem outcome_ofExcept (x : Except Failure α) : (ofExcept x).outcome = x := rfl

@[simp] theorem outcome_pure (a : α) : (pure a : Traced α).outcome = .ok a := rfl

@[simp] theorem outcome_bind (x : Traced α) (f : α → Traced β) :
    (x >>= f).outcome = x.outcome >>= fun a => (f a).outcome := by
  change (andThen x f).outcome = _
  unfold andThen
  cases x.outcome <;> rfl

end Traced

end DecimalCalc
