import SpendScript.Stack
import SpendScript.Flags
import SpendScript.Run
import SpendScript.Hash
/-!
# The machine between two chunks

What this file fixes:

* `State` -- the two stacks, the count of operations, one condition per open branch, and where the
  part of the script starts that signatures cover.
* `State.isActive` -- whether the branch is taken: every open condition holds.
* `Context` -- what does not change while a script is evaluated.
* `truthy`, `ofBool` -- elements as truth values.
* `State.onStack` -- an operation on the stack as a step of the machine.
-/

namespace SpendScript

/-! ## 1. Truth values -/

/-- Whether an element is a number other than zero: some byte is not zero, and a last byte that is
only the sign does not count. -/
def truthy (element : Bytes) : Bool :=
  match element.reverse with
  | [] => false
  | last :: rest => rest.any (· != 0) || (last != 0 && last != 0x80)

/-- One, or the empty string. -/
def ofBool (b : Bool) : Bytes := if b then [1] else []

@[simp] theorem truthy_ofBool (b : Bool) : truthy (ofBool b) = b := by cases b <;> rfl

/-! ## 2. State -/

/-- The machine between two chunks. -/
structure State where
  stack : Stack Bytes := []
  alt : Stack Bytes := []
  /-- operations so far, taken or skipped, and keys that were to be checked -/
  opCount : Nat := 0
  /-- one condition per open branch, the innermost first -/
  conditions : Stack Bool := []
  /-- the position after the last separator that was passed -/
  beginCode : Nat := 0
  deriving DecidableEq, Repr

namespace State

/-- The machine before the first chunk. -/
def initial (stack : Stack Bytes) : State := { stack }

/-- Whether every condition holds. -/
def allHold (conditions : Stack Bool) : Bool := conditions.all id

/-- Whether the branch is taken. -/
def isActive (s : State) : Bool := allHold s.conditions

/-- The elements of both stacks together. -/
def depth (s : State) : Nat := s.stack.length + s.alt.length

/-- An operation on the stack as a step of the machine. -/
def onStack (s : State) (op : StackOp Bytes Unit) : Except Failure State :=
  match op s.stack with
  | .ok _ stack => .ok { s with stack }
  | .error e _ => .error e

end State

/-! ## 3. Context -/

/-- What does not change while a script is evaluated. -/
structure Context where
  flags : Flags
  limits : Limits
  checker : Checker
  hashes : Hashes
  reader : Ecdsa.Reader
  script : Program

namespace Context

/-- The number that an element encodes, under the limit and the rule in force. -/
def number (c : Context) (element : Bytes) : Except Failure Int :=
  (ScriptNumber.decode element c.flags.minimalData c.limits.maxNumSize).mapError .ofNumber

end Context

end SpendScript
