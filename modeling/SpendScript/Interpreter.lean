import SpendScript.Execute
import SpendScript.Extension
/-!
# Evaluation and verification

What this file fixes:

* `Interpreter` -- rules, limits, a checker, digest functions, a reader of signatures and
  extensions. It holds no state of an evaluation, so that it serves any number of them; what its
  extensions remember is the memory that each call is given and hands back.
* `Interpreter.step` -- one chunk: the checks that hold in skipped branches too (`accept`), then the
  first extension that claims the chunk or else the chunk itself, then the limit on the stacks.
* `Interpreter.eval` -- one script from a given stack.
* `Interpreter.verify` -- a signature script against an output script, with the hooks, redemption
  and the clean-stack rule.
* `Interpreter.atDepth` -- the interpreter whose extensions use it themselves, to a depth.
-/

namespace SpendScript

/-- What does not change from one verification to the next. -/
structure Interpreter (μ : Type) where
  /-- the rules in force before extensions add theirs -/
  baseFlags : Flags
  checker : Checker
  limits : Limits := {}
  hashes : Hashes := .standard
  reader : Ecdsa.Reader := LaxDer.signature?
  /-- consulted in this order -/
  extensions : List (Extension μ) := []
  /-- what is made of a question asked of the checker -/
  observe : Query → μ → μ := fun _ m => m
  /-- the evaluation that an extension is given with a chunk that it executes. An extension may call
  it on scripts that it claims chunks of again, without end, so this is an evaluation that follows
  calls to some depth (`Interpreter.atDepth`) -/
  inner : Evaluator μ := .failing

namespace Interpreter

variable {μ : Type}

/-- The rules in force: the interpreter's own and those of its extensions. -/
def flags (i : Interpreter μ) : Flags :=
  i.extensions.foldl (fun flags ext => flags ∪ ext.extraFlags) i.baseFlags

/-- What does not change while a script is evaluated under given rules. -/
def context (i : Interpreter μ) (script : Program) (flags : Flags) : Context where
  flags := flags
  limits := i.limits
  checker := i.checker
  hashes := i.hashes
  reader := i.reader
  script := script

/-! ## 1. One chunk -/

/-- The failure of a chunk that no script may hold, in whatever branch. -/
def forbidden? (chunk : Chunk) : Option Failure :=
  match chunk with
  | .disabled _ => some (.detailed .disabledOpcode (.chunk chunk))
  | .bad b => if b.failsUnexecuted then some (.detailed .badOpcode (.chunk chunk)) else none
  | _ => none

/-- The failure of a push that says its length wrongly or pushes too much. -/
def badPush? (limits : Limits) (chunk : Chunk) : Option Failure :=
  match chunk with
  | .push p =>
    let size := p.value.length
    if ¬ p.WellFormed then some (.detailed .badOpcode (.illFormedPush size))
    else if limits.maxPushSize < size then some (.detailed .pushSize (.size size))
    else none
  | _ => none

/-- Whether a chunk counts towards the limit on operations. -/
def isCounted (chunk : Chunk) : Bool := Chunk.lastPushByte < chunk.byte

/-- The checks that a chunk passes before anything is done with it, in whatever branch, and the
count of operations after it. -/
def accept (limits : Limits) (chunk : Chunk) (s : State) : Except Failure State :=
  match badPush? limits chunk with
  | some e => .error e
  | none =>
    let opCount := if isCounted chunk then s.opCount + 1 else s.opCount
    if isCounted chunk ∧ limits.maxOpCount < opCount then .error (.plain .opCount)
    else
      match forbidden? chunk with
      | some e => .error e
      | none => .ok { s with opCount }

/-- The limit on both stacks together. -/
def checkDepth (limits : Limits) (s : State) : Except Failure State :=
  if limits.maxStackSize < s.depth then .error (.plain .stackSize) else .ok s

/-- The first extension that claims a chunk. Those after it are not asked. -/
def firstClaiming (chunk : Chunk) (flags : Flags) :
    List (Extension μ) → μ → Option (Extension μ) × μ
  | [], m => (none, m)
  | ext :: rest, m =>
    match ext.claims chunk flags m with
    | (true, m) => (some ext, m)
    | (false, m) => firstClaiming chunk flags rest m

/-- A run, with its questions made known. -/
def perform {α : Type} (i : Interpreter μ) (x : Run α) : Session μ α := x.observed i.observe

/-- What is done with a chunk that passed the checks. In a skipped branch only opcodes that open,
switch and close branches act. -/
def dispatch (i : Interpreter μ) (c : Context) (position : Nat) (chunk : Chunk) (s : State) :
    Session μ State :=
  if s.isActive then do
    match ← Session.ofState (firstClaiming chunk c.flags i.extensions) with
    | some ext => ext.handleOpcode i.inner chunk c.flags s
    | none => i.perform (Execute.chunk c position s chunk)
  else
    match chunk with
    | .control op => Session.lift (Execute.control op s)
    | _ => pure s

/-- One chunk of a script. -/
def step (i : Interpreter μ) (c : Context) (position : Nat) (chunk : Chunk) (s : State) :
    Session μ State := do
  let s ← Session.lift (accept c.limits chunk s)
  let s ← i.dispatch c position chunk s
  Session.lift (checkDepth c.limits s)

/-! ## 2. One script -/

/-- The chunks of a script from a position on. -/
def steps (i : Interpreter μ) (c : Context) : (position : Nat) → Program → State → Session μ State
  | _, [], s => pure s
  | position, chunk :: rest, s => do
    let s ← i.step c position chunk s
    i.steps c (position + 1) rest s

/-- A script that is not too long. -/
def checkScriptSize (limits : Limits) (script : Program) : Except Failure Unit :=
  let size := script.byteLength
  if limits.maxScriptSize < size then .error (.detailed .scriptSize (.size size)) else .ok ()

/-- The stack that is left when every branch was closed. -/
def finish (s : State) : Except Failure (Stack Bytes) :=
  if s.conditions.isEmpty then .ok s.stack else .error Execute.unbalanced

/-- Evaluates one script, starting from a stack. All else starts fresh. -/
def eval (i : Interpreter μ) (stack : Stack Bytes) (script : Program) (flags : Flags) :
    Session μ (Stack Bytes) := do
  Session.lift (checkScriptSize i.limits script)
  let s ← i.steps (i.context script flags) 0 script (.initial stack)
  Session.lift (finish s)

/-- Evaluates one script from the empty stack under the rules in force. -/
def run (i : Interpreter μ) (script : Program) : Session μ Unit :=
  discard (i.eval [] script i.flags)

/-! ## 3. Both scripts -/

/-- The evaluation of one script, for extensions. -/
def evaluator (i : Interpreter μ) : Evaluator μ := ⟨i.eval⟩

/-- Runs both scripts one after the other. -/
def evalScripts (i : Interpreter μ) (sig output : Program) (flags : Flags) :
    Session μ (Stack Bytes) := i.evaluator.evalScripts sig output flags

/-- Runs the script that a signature script pushed last. -/
def redeem (i : Interpreter μ) (sig : Program) (stack : Stack Bytes) (flags : Flags) :
    Session μ (Stack Bytes) := i.evaluator.redeem sig stack flags

/-- The clean-stack rule. Extensions may hand in a stack that was never found to be true, so that
is asked for as well. -/
def checkCleanStack (flags : Flags) (stack : Stack Bytes) : Except Failure Unit :=
  if flags.cleanStack then
    if stack.length ≠ 1 then .error (.detailed .cleanStack (.elementsRemain stack.length))
    else requireTrue stack
  else .ok ()

/-- What has to hold of flags and signature script before anything is run. -/
def checkBefore (flags : Flags) (sig : Program) : Except Failure Unit :=
  if flags.cleanStack && !flags.p2sh then .error (.detailed .cleanStack .cleanStackWithoutP2sh)
  else if flags.sigPushOnly && !sig.isPushOnly then .error (.plain .sigPushOnly)
  else .ok ()

/-- The first extension that takes over a pair of scripts. -/
def firstTaking (sig output : Program) (flags : Flags) :
    List (Extension μ) → μ → Option (Extension μ) × μ
  | [], m => (none, m)
  | ext :: rest, m =>
    match ext.takesScripts sig output flags m with
    | (true, m) => (some ext, m)
    | (false, m) => firstTaking sig output flags rest m

/-- Calls the hooks after a signature script, in order. -/
def afterSignatureScript (i : Interpreter μ) (sig : Program) (flags : Flags)
    (stack : Stack Bytes) : List (Extension μ) → Session μ Unit
  | [] => pure ()
  | ext :: rest => do
    ext.afterSignatureScript i.evaluator sig flags stack
    i.afterSignatureScript sig flags stack rest

/-- Calls the hooks after an output script, in order, until one has handled the rest. -/
def afterOutputScript (i : Interpreter μ) (output : Program) (flags : Flags) :
    List (Extension μ) → Stack Bytes → Session μ (Flow × Stack Bytes)
  | [], stack => pure (.goOn, stack)
  | ext :: rest, stack => do
    let (flow, stack) ← ext.afterOutputScript i.evaluator output flags stack
    if flow = .handled then return (.handled, stack)
    else i.afterOutputScript output flags rest stack

/-- Both scripts, the hooks after each, and redemption where the output asks for it and no
extension has seen to it. -/
def verifyBuiltIn (i : Interpreter μ) (sig output : Program) (flags : Flags) :
    Session μ (Stack Bytes) := do
  let pushed ← i.eval [] sig flags
  i.afterSignatureScript sig flags pushed i.extensions
  let stack ← i.eval pushed output flags
  Session.lift (requireTrue stack)
  let (flow, stack) ← i.afterOutputScript output flags i.extensions stack
  if flags.p2sh ∧ flow = .goOn ∧ output.isPayToScriptHash then i.redeem sig pushed flags
  else return stack

/-- Verifies a signature script against an output script under given rules. -/
def verifyWith (i : Interpreter μ) (sig output : Program) (flags : Flags) : Session μ Unit := do
  Session.lift (checkBefore flags sig)
  let stack ← match ← Session.ofState (firstTaking sig output flags i.extensions) with
    | some ext => ext.handleScripts i.evaluator sig output flags
    | none => i.verifyBuiltIn sig output flags
  Session.lift (checkCleanStack flags stack)

/-- Verifies a signature script against an output script under the rules in force. -/
def verify (i : Interpreter μ) (sig output : Program) : Session μ Unit :=
  i.verifyWith sig output i.flags

/-! ## 4. Extensions that use the interpreter -/

/-- What hooks may see of the interpreter that calls them, beside what no extension changes. -/
structure Interface (μ : Type) where
  flags : Flags
  step : Context → (position : Nat) → Chunk → State → Session μ State
  eval : Stack Bytes → Program → Flags → Session μ (Stack Bytes)
  verify : (sig output : Program) → Session μ Unit

def interface (i : Interpreter μ) : Interface μ := ⟨i.flags, i.step, i.eval, i.verify⟩

/-- The interpreter whose hooks see another one. -/
def seeing (i : Interpreter μ) (extensions : Interface μ → List (Extension μ))
    (seen : Interface μ) : Interpreter μ :=
  { i with extensions := extensions seen, inner := ⟨seen.eval⟩ }

/-- **Hooks that use the interpreter**, to a depth: those of the outermost call see an interpreter
whose own hooks see one less deep, and so on down to whatever is seen innermost. -/
def atDepth (i : Interpreter μ) (extensions : Interface μ → List (Extension μ))
    (innermost : Interface μ) : (depth : Nat) → Interpreter μ
  | 0 => i.seeing extensions innermost
  | depth + 1 => i.seeing extensions (i.atDepth extensions innermost depth).interface

end Interpreter

end SpendScript
