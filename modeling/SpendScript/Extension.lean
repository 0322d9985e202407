import SpendScript.State
/-!
# Extensions: hooks into verification

An extension can take over single opcodes or a whole verification, and can act after each of the
two scripts of a verification. What extensions remember from one hook to the next, and from one
verification to the next, is one memory that they share; its type is a parameter, and so is what is
made of the questions asked of a checker.

What this file fixes:

* `Session` -- a computation that may change the memory. The memory is kept when it fails.
* `Run.observed` -- a run as a session, with every question made known to an observer in the
  memory.
* `Evaluator` -- the evaluation of one script, as extensions are given it, with the two
  verifications built on it: both scripts one after the other, and redemption.
* `Extension` -- the hooks, each with a default that does nothing of its own.
-/

namespace SpendScript

variable {μ α : Type}

/-! ## 1. Sessions -/

/-- A computation that may change the memory, and ends with a result or a failure. -/
abbrev Session (μ α : Type) := EStateM Failure μ α

/-- A computation that does not look at the memory. -/
def Session.lift (x : Except Failure α) : Session μ α := fun m =>
  match x with
  | .ok a => .ok a m
  | .error e => .error e m

/-- A computation that cannot fail. -/
def Session.ofState (x : μ → α × μ) : Session μ α := fun m => .ok (x m).1 (x m).2

/-- A run, with every question that it asks made known to an observer, in order. -/
def Run.observed (observe : Query → μ → μ) (x : Run α) : Session μ α := fun m =>
  let m := x.asked.foldl (fun m q => observe q m) m
  match x.result with
  | .ok a => .ok a m
  | .error e => .error e m

/-! ## 2. Verifying with an evaluator -/

/-- The evaluation of one script on a stack. -/
structure Evaluator (μ : Type) where
  eval : Stack Bytes → Program → Flags → Session μ (Stack Bytes)

/-- No evaluation: every script fails. It stands where calls are not followed any deeper. -/
def Evaluator.failing : Evaluator μ := ⟨fun _ _ _ => throw (.plain .unknownError)⟩

/-- Fails unless there is a top and it is true. -/
def requireTrue (stack : Stack Bytes) : Except Failure Unit :=
  match stack with
  | top :: _ => if truthy top then .ok () else .error (.plain .evalFalse)
  | [] => .error (.plain .evalFalse)

namespace Evaluator

/-- Runs the signature script, then the output script on what it leaves, and asks for a true
result. -/
def evalScripts (ev : Evaluator μ) (sig output : Program) (flags : Flags) :
    Session μ (Stack Bytes) := do
  let stack ← ev.eval [] sig flags
  let stack ← ev.eval stack output flags
  Session.lift (requireTrue stack)
  return stack

/-- The top of what a signature script leaves, read as a script, and what is under it. -/
def redeemScript (sig : Program) (stack : Stack Bytes) :
    Except Failure (Program × Stack Bytes) :=
  if !sig.isPushOnly then .error (.plain .sigPushOnly)
  else
    match stack with
    | [] => .error (.onStack .emptyStack)
    | top :: below =>
      match Program.parse top with
      | .error e => .error (.ofRead e)
      | .ok script => .ok (script, below)

/-- The second half of a pay-to-script-hash spend: what the signature script pushed last is run as
a script on the rest, and has to leave a true value. -/
def redeem (ev : Evaluator μ) (sig : Program) (stack : Stack Bytes) (flags : Flags) :
    Session μ (Stack Bytes) := do
  let (script, below) ← Session.lift (redeemScript sig stack)
  let stack ← ev.eval below script flags
  Session.lift (requireTrue stack)
  return stack

end Evaluator

/-! ## 3. Hooks -/

/-- Whether the remaining steps of a verification are still to be done. -/
inductive Flow where
  | goOn
  /-- the extension has done the rest, so no redemption follows -/
  | handled
  deriving DecidableEq, Repr

/-- The hooks of an extension. -/
structure Extension (μ : Type) where
  /-- rules in force while the extension is installed -/
  extraFlags : Flags := .empty
  /-- whether it takes over the verification of a pair of scripts -/
  takesScripts : (sig output : Program) → Flags → μ → Bool × μ := fun _ _ _ m => (false, m)
  /-- verifies a pair of scripts that it took over; only the clean-stack rule is applied to the
  result -/
  handleScripts : Evaluator μ → (sig output : Program) → Flags → Session μ (Stack Bytes) :=
    fun ev sig output flags => ev.evalScripts sig output flags
  /-- called with what the signature script left -/
  afterSignatureScript : Evaluator μ → (sig : Program) → Flags → Stack Bytes → Session μ Unit :=
    fun _ _ _ _ => pure ()
  /-- called with the true result of the output script, which it may replace -/
  afterOutputScript : Evaluator μ → (output : Program) → Flags → Stack Bytes →
      Session μ (Flow × Stack Bytes) :=
    fun _ _ _ stack => pure (.goOn, stack)
  /-- whether it executes a chunk in place of the interpreter; asked only in branches that are
  taken -/
  claims : Chunk → Flags → μ → Bool × μ := fun _ _ m => (false, m)
  /-- executes a chunk that it claimed -/
  handleOpcode : Evaluator μ → Chunk → Flags → State → Session μ State := fun _ _ _ s => pure s

/-- The extension all of whose hooks are the defaults. -/
def Extension.neutral : Extension μ := {}

end SpendScript
