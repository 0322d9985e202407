import SpendScript.Failure
import SpendScript.Checker
/-!
# Computations that ask a checker

What this file fixes:

* `Run` -- what was asked on the way, in order, and the outcome. What was asked is kept when the
  computation fails.
* `asked_bind`, `result_bind` -- how the two parts of a sequence are made from the parts of its
  pieces; later proofs need no more than these.
-/

namespace SpendScript

/-- The questions asked on the way, and the outcome. -/
structure Run (α : Type) where
  asked : List Query
  result : Except Failure α

namespace Run

variable {α β : Type}

/-- A computation that asks nothing. -/
def ofExcept (x : Except Failure α) : Run α := ⟨[], x⟩

/-- A failure that is reached without a question. -/
def fail (e : Failure) : Run α := ⟨[], .error e⟩

/-- Goes on with the result, and stops at a failure. -/
def andThen (x : Run α) (f : α → Run β) : Run β :=
  match x.result with
  | .error e => ⟨x.asked, .error e⟩
  | .ok a =>
    let y := f a
    ⟨x.asked ++ y.asked, y.result⟩

instance : Monad Run where
  pure a := ⟨[], .ok a⟩
  bind := andThen

instance : MonadLift (Except Failure) Run := ⟨ofExcept⟩

/-- Asks whether a signature fits. -/
def askSignature (c : Checker) (sig key code : Bytes) : Run Bool :=
  let answer := c.signature sig key code
  ⟨[.signature sig key code answer], .ok answer⟩

/-- Asks whether a lock time has come. -/
def askLockTime (c : Checker) (n : Int) : Run Bool :=
  let answer := c.lockTime n
  ⟨[.lockTime n answer], .ok answer⟩

@[simp] theorem asked_pure (a : α) : (pure a : Run α).asked = [] := rfl

@[simp] theorem result_pure (a : α) : (pure a : Run α).result = .ok a := rfl

@[simp] theorem asked_ofExcept (x : Except Failure α) : (ofExcept x).asked = [] := rfl

@[simp] theorem result_ofExcept (x : Except Failure α) : (ofExcept x).result = x := rfl

/-- **The outcome of a sequence** is that of its pieces; the questions play no part in it. -/
theorem result_bind (x : Run α) (f : α → Run β) :
    (x >>= f).result = x.result >>= fun a => (f a).result := by
  show (andThen x f).result = _
  unfold andThen
  cases x.result <;> rfl

/-- **The questions of a sequence** are those of the first piece, then those of the second if the
first did not fail. -/
theorem asked_bind (x : Run α) (f : α → Run β) :
    (x >>= f).asked = x.asked ++ match x.result with
      | .ok a => (f a).asked
      | .error _ => [] := by
  show (andThen x f).asked = _
  unfold andThen
  cases x.result <;> simp

end Run

end SpendScript
