/-!
# Outcomes of interruptible operations

An operation on a stream can end in three ways: with a value, with an error, or by being abandoned
because a read or a write was not ready.  An abandoned operation has no result, but what it did
before it stopped stays done.
-/

namespace RemoteDebugger

/-- How an operation that may be abandoned ends. -/
inductive Outcome (ε α : Type) where
  | ok (value : α)
  | error (error : ε)
  | abandoned
  deriving DecidableEq, Repr

namespace Outcome

variable {ε ε' α β : Type}

/-- Apply a function to the value of a successful outcome. -/
def map (f : α → β) : Outcome ε α → Outcome ε β
  | .ok value => .ok (f value)
  | .error e => .error e
  | .abandoned => .abandoned

/-- Apply a function to the error of a failed outcome. -/
def mapError (f : ε → ε') : Outcome ε α → Outcome ε' α
  | .ok value => .ok value
  | .error e => .error (f e)
  | .abandoned => .abandoned

/-- A result that is already known, as an outcome. -/
def ofExcept : Except ε α → Outcome ε α
  | .ok value => .ok value
  | .error e => .error e

/-- Continue a successful outcome with a computation that may itself fail. -/
def andThen (outcome : Outcome ε α) (f : α → Except ε β) : Outcome ε β :=
  match outcome with
  | .ok value => ofExcept (f value)
  | .error e => .error e
  | .abandoned => .abandoned

/-- Whether the operation stopped at a read or a write that was not ready. -/
def isAbandoned : Outcome ε α → Bool
  | .abandoned => true
  | _ => false

@[simp] theorem isAbandoned_map (f : α → β) (outcome : Outcome ε α) :
    (outcome.map f).isAbandoned = outcome.isAbandoned := by
  cases outcome <;> rfl

@[simp] theorem isAbandoned_mapError (f : ε → ε') (outcome : Outcome ε α) :
    (outcome.mapError f).isAbandoned = outcome.isAbandoned := by
  cases outcome <;> rfl

end Outcome

end RemoteDebugger
