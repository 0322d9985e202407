import SpendScript.Extension
/-!
# Redemption as an extension

What this file fixes:

* `Cell` -- a place in a memory: what is put there is found there.
* `PayToScriptHash.extension` -- remembers what the signature script left, and after the output
  script redeems a pay-to-script-hash output itself. Its flag is in force while it is installed.
-/

namespace SpendScript

/-- A place in a memory. -/
structure Cell (μ α : Type) where
  get : μ → α
  put : α → μ → μ
  get_put : ∀ (a : α) (m : μ), get (put a m) = a

/-- A memory as one place. -/
def Cell.whole (α : Type) : Cell α α := ⟨id, fun a _ => a, fun _ _ => rfl⟩

namespace PayToScriptHash

/-- A signature script and what it left, from the end of that script to the end of the next. -/
abbrev Pending := Option (Program × Stack Bytes)

variable {μ : Type}

/-- Remembers a signature script and what it left. -/
def remember (cell : Cell μ Pending) (sig : Program) (stack : Stack Bytes) : Session μ Unit :=
  fun m => .ok () (cell.put (some (sig, stack)) m)

/-- What was remembered, which is then forgotten. -/
def takeOut (cell : Cell μ Pending) : Session μ Pending :=
  fun m => .ok (cell.get m) (cell.put none m)

/-- Redeems a pay-to-script-hash output with what is remembered; any other output is left to the
remaining steps. -/
def redeemPending (cell : Cell μ Pending) (ev : Evaluator μ) (output : Program) (flags : Flags)
    (stack : Stack Bytes) : Session μ (Flow × Stack Bytes) := do
  match ← takeOut cell with
  | some (sig, pushed) =>
    if flags.p2sh && output.isPayToScriptHash then
      return (.handled, ← ev.redeem sig pushed flags)
    else return (.goOn, stack)
  | none => return (.goOn, stack)

/-- Redemption as an extension, with its memory in the given place. -/
def extension (cell : Cell μ Pending) : Extension μ where
  extraFlags := { p2sh := true }
  afterSignatureScript := fun _ sig _ stack => remember cell sig stack
  afterOutputScript := redeemPending cell

end PayToScriptHash

end SpendScript
