import SpendScript.Proofs.Session
/-!
# Verification without extensions

An interpreter without extensions never looks at its memory: all that is left of one is the chain
of questions that its checker is asked. This file says so once, so that what is proved of such an
interpreter is proved about runs.

What this file fixes:

* `BuiltIn.step`, `BuiltIn.steps`, `BuiltIn.eval`, `BuiltIn.verify` -- the evaluation as a run.
* `BuiltIn.steps_append`, `BuiltIn.depth_le_of_steps` -- a script in two parts, and the limit on the
  stacks along a script.
* `Interpreter.Dispatches` -- the interpreter does with each chunk what the opcode itself does. It
  holds without extensions (`dispatches_of_noExtensions`), and it is all that `eval_eq` needs.
* `Interpreter.eval_eq`, `Interpreter.verifyWith_eq` -- the interpreter's sessions are these runs,
  made known to its observer.
-/

namespace SpendScript

variable {μ : Type}

/-! ## 1. The evaluation as a run -/

namespace BuiltIn

/-- What is done with a chunk that passed the checks. -/
def dispatch (c : Context) (position : Nat) (chunk : Chunk) (s : State) : Run State :=
  if s.isActive then Execute.chunk c position s chunk
  else
    match chunk with
    | .control op => .ofExcept (Execute.control op s)
    | _ => pure s

/-- One chunk of a script. -/
def step (c : Context) (position : Nat) (chunk : Chunk) (s : State) : Run State := do
  let s ← Run.ofExcept (Interpreter.accept c.limits chunk s)
  let s ← dispatch c position chunk s
  Run.ofExcept (Interpreter.checkDepth c.limits s)

/-- The chunks of a script from a position on. -/
def steps (c : Context) : (position : Nat) → Program → State → Run State
  | _, [], s => pure s
  | position, chunk :: rest, s => do
    let s ← step c position chunk s
    steps c (position + 1) rest s

theorem steps_cons (c : Context) (position : Nat) (chunk : Chunk) (rest : Program) (s : State) :
    steps c position (chunk :: rest) s
      = step c position chunk s >>= steps c (position + 1) rest := rfl

/-- **A script in two parts**: the second is run at its own position on what the first leaves. -/
theorem steps_append (c : Context) (position : Nat) (p q : Program) (s : State) :
    steps c position (p ++ q) s
      = steps c position p s >>= steps c (position + p.length) q := by
  induction p generalizing position s with
  | nil => exact (pure_bind s _).symm
  | cons chunk rest ih =>
    have hposition : position + (chunk :: rest).length = position + 1 + rest.length := by
      rw [List.length_cons]
      omega
    rw [List.cons_append, steps_cons, steps_cons, hposition, bind_assoc]
    congr 1
    funext s
    exact ih (position + 1) s

/-- A push passes if its form says its length and the limit on pushes lets it. -/
theorem badPush?_eq_none_iff {limits : Limits} {p : Push} :
    Interpreter.badPush? limits (.push p) = none ↔
      p.WellFormed ∧ p.value.length ≤ limits.maxPushSize := by
  unfold Interpreter.badPush?
  dsimp only
  by_cases hwell : p.WellFormed
  · rw [if_neg (not_not_intro hwell), and_iff_right hwell]
    by_cases hlength : limits.maxPushSize < p.value.length
    · rw [if_pos hlength]
      exact ⟨nofun, fun hle => absurd hlength (Nat.not_lt.mpr hle)⟩
    · rw [if_neg hlength]
      exact ⟨fun _ => Nat.not_lt.mp hlength, fun _ => rfl⟩
  · rw [if_pos hwell]
    exact ⟨nofun, fun h => absurd h.1 hwell⟩

/-- The check of the stacks lets the machine through as it is, or not at all. -/
theorem checkDepth_eq_ok_iff {limits : Limits} {s s' : State} :
    Interpreter.checkDepth limits s = .ok s' ↔ s' = s ∧ s.depth ≤ limits.maxStackSize := by
  unfold Interpreter.checkDepth
  by_cases hmore : limits.maxStackSize < s.depth
  · rw [if_pos hmore]
    exact ⟨nofun, fun h => absurd hmore (Nat.not_lt.mpr h.2)⟩
  · rw [if_neg hmore]
    exact ⟨fun h => by cases h; exact ⟨rfl, Nat.not_lt.mp hmore⟩, fun h => by rw [h.1]⟩

theorem checkDepth_of_le {limits : Limits} {s : State} (h : s.depth ≤ limits.maxStackSize) :
    Run.ofExcept (Interpreter.checkDepth limits s) = pure s :=
  congrArg Run.ofExcept (checkDepth_eq_ok_iff.mpr ⟨rfl, h⟩)

/-- The stacks are within their limit after each chunk. -/
theorem depth_le_of_step {c : Context} {position : Nat} {chunk : Chunk} {s s' : State}
    (h : (step c position chunk s).result = .ok s') : s'.depth ≤ c.limits.maxStackSize := by
  obtain ⟨accepted, _, hrest⟩ := Run.eq_ok_of_bind h
  obtain ⟨done, _, hcheck⟩ := Run.eq_ok_of_bind hrest
  obtain ⟨rfl, hdepth⟩ := checkDepth_eq_ok_iff.mp hcheck
  exact hdepth

/-- **The stacks stay within their limit** along a script. -/
theorem depth_le_of_steps {c : Context} {position : Nat} {p : Program} {s s' : State}
    (hdepth : s.depth ≤ c.limits.maxStackSize) (h : (steps c position p s).result = .ok s') :
    s'.depth ≤ c.limits.maxStackSize := by
  induction p generalizing position s with
  | nil => cases h; exact hdepth
  | cons chunk rest ih =>
    obtain ⟨between, hstep, hrest⟩ := Run.eq_ok_of_bind h
    exact ih (depth_le_of_step hstep) hrest

/-- Evaluates one script on a stack. -/
def eval (i : Interpreter μ) (stack : Stack Bytes) (script : Program) (flags : Flags) :
    Run (Stack Bytes) := do
  Run.ofExcept (Interpreter.checkScriptSize i.limits script)
  let s ← steps (i.context script flags) 0 script (.initial stack)
  Run.ofExcept (Interpreter.finish s)

/-- A script that is not too long is run, and has to close every branch. -/
theorem eval_of_byteLength_le {i : Interpreter μ} {script : Program}
    (h : script.byteLength ≤ i.limits.maxScriptSize) (stack : Stack Bytes) (flags : Flags) :
    eval i stack script flags = steps (i.context script flags) 0 script (.initial stack) >>=
      fun s => Run.ofExcept (Interpreter.finish s) := by
  have hcheck : Interpreter.checkScriptSize i.limits script = .ok () := if_neg (Nat.not_lt.mpr h)
  unfold eval
  rw [hcheck]
  rfl

/-- **A script that succeeds** is not too long, and its run ends with every branch closed. -/
theorem eval_ok {i : Interpreter μ} {stack left : Stack Bytes} {script : Program} {flags : Flags}
    (h : (eval i stack script flags).result = .ok left) :
    script.byteLength ≤ i.limits.maxScriptSize ∧
    ∃ s, (steps (i.context script flags) 0 script (.initial stack)).result = .ok s ∧
      s.conditions = [] ∧ s.stack = left := by
  obtain ⟨_, hsize, h⟩ := Run.eq_ok_of_bind h
  obtain ⟨s, hsteps, hfinish⟩ := Run.eq_ok_of_bind h
  refine ⟨?_, s, hsteps, ?_⟩
  · have hcheck : Interpreter.checkScriptSize i.limits script = .ok () := hsize
    unfold Interpreter.checkScriptSize at hcheck
    dsimp only at hcheck
    split at hcheck
    · cases hcheck
    · next hle => exact Nat.not_lt.mp hle
  · have hend : Interpreter.finish s = .ok left := hfinish
    unfold Interpreter.finish at hend
    split at hend
    · next hempty => cases hend; exact ⟨List.isEmpty_iff.mp hempty, rfl⟩
    · cases hend

/-- Runs both scripts one after the other. -/
def evalScripts (i : Interpreter μ) (sig output : Program) (flags : Flags) :
    Run (Stack Bytes) := do
  let pushed ← eval i [] sig flags
  let stack ← eval i pushed output flags
  Run.ofExcept (requireTrue stack)
  return stack

/-- Runs the script that a signature script pushed last. -/
def redeem (i : Interpreter μ) (sig : Program) (stack : Stack Bytes) (flags : Flags) :
    Run (Stack Bytes) := do
  let (script, below) ← Run.ofExcept (Evaluator.redeemScript sig stack)
  let stack ← eval i below script flags
  Run.ofExcept (requireTrue stack)
  return stack

/-- Both scripts, and redemption where the output asks for it. -/
def verifyScripts (i : Interpreter μ) (sig output : Program) (flags : Flags) :
    Run (Stack Bytes) := do
  let pushed ← eval i [] sig flags
  let stack ← eval i pushed output flags
  Run.ofExcept (requireTrue stack)
  if flags.p2sh ∧ output.isPayToScriptHash then redeem i sig pushed flags else return stack

/-- Verifies a signature script against an output script. -/
def verify (i : Interpreter μ) (sig output : Program) (flags : Flags) : Run Unit := do
  Run.ofExcept (Interpreter.checkBefore flags sig)
  let stack ← verifyScripts i sig output flags
  Run.ofExcept (Interpreter.checkCleanStack flags stack)

end BuiltIn

/-! ## 2. Interpreters that do what the opcodes do -/

namespace Interpreter

/-- What the interpreter does with a chunk is what the chunk's opcode does, whichever extension
does it. -/
def Dispatches (i : Interpreter μ) : Prop :=
  ∀ (c : Context) (position : Nat) (chunk : Chunk) (s : State), c.checker = i.checker →
    i.dispatch c position chunk s = (BuiltIn.dispatch c position chunk s).observed i.observe

variable {i : Interpreter μ}

theorem dispatches_of_noExtensions (h : i.extensions = []) : i.Dispatches := by
  intro c position chunk s _
  unfold dispatch BuiltIn.dispatch
  rw [h]
  split
  · rfl
  · cases chunk <;> rfl

section Dispatches

variable (h : i.Dispatches)
include h

theorem step_eq {c : Context} (hc : c.checker = i.checker) (position : Nat) (chunk : Chunk)
    (s : State) : i.step c position chunk s
      = (BuiltIn.step c position chunk s).observed i.observe := by
  unfold step BuiltIn.step
  simp only [Run.observed_bind, Run.observed_ofExcept]
  congr 1
  funext s
  rw [h c position chunk s hc]

/-- A run over the chunks of a script is one observed run, by induction on the script. -/
theorem steps_eq {c : Context} (hc : c.checker = i.checker) (position : Nat) (p : Program)
    (s : State) : i.steps c position p s
      = (BuiltIn.steps c position p s).observed i.observe := by
  induction p generalizing position s with
  | nil => rfl
  | cons chunk rest ih =>
    unfold steps BuiltIn.steps
    rw [Run.observed_bind, step_eq h hc]
    congr 1
    funext s
    exact ih (position + 1) s

/-- **Evaluation is one observed run.** -/
theorem eval_eq (stack : Stack Bytes) (script : Program) (flags : Flags) :
    i.eval stack script flags = (BuiltIn.eval i stack script flags).observed i.observe := by
  unfold eval BuiltIn.eval
  simp only [Run.observed_bind, Run.observed_ofExcept]
  rw [steps_eq h rfl]

theorem evalScripts_eq (sig output : Program) (flags : Flags) :
    i.evalScripts sig output flags
      = (BuiltIn.evalScripts i sig output flags).observed i.observe := by
  unfold evalScripts Evaluator.evalScripts BuiltIn.evalScripts
  simp only [Run.observed_bind, Run.observed_ofExcept, Run.observed_pure, ← eval_eq h]
  rfl

theorem redeem_eq (sig : Program) (stack : Stack Bytes) (flags : Flags) :
    i.evaluator.redeem sig stack flags
      = (BuiltIn.redeem i sig stack flags).observed i.observe := by
  unfold Evaluator.redeem BuiltIn.redeem
  simp only [Run.observed_bind, Run.observed_ofExcept, Run.observed_pure]
  congr 1
  funext found
  show i.eval found.2 found.1 flags >>= _ = _
  rw [eval_eq h]

end Dispatches

/-! ## 3. Without extensions -/

/-- An interpreter without extensions and without rules, for which no signature fits and no lock
time has come. -/
def plain : Interpreter Unit := { baseFlags := .empty, checker := .rejecting }

theorem flags_of_noExtensions (h : i.extensions = []) : i.flags = i.baseFlags := by
  unfold flags
  rw [h]
  rfl

theorem verifyBuiltIn_eq (h : i.extensions = []) (sig output : Program) (flags : Flags) :
    i.verifyBuiltIn sig output flags
      = (BuiltIn.verifyScripts i sig output flags).observed i.observe := by
  have hd := dispatches_of_noExtensions h
  unfold verifyBuiltIn BuiltIn.verifyScripts
  rw [Run.observed_bind, eval_eq hd, h]
  congr 1
  funext pushed
  rw [Run.observed_bind, ← eval_eq hd]
  show i.eval pushed output flags >>= _ = _
  congr 1
  funext stack
  rw [Run.observed_bind, Run.observed_ofExcept]
  congr 1
  funext _
  show (if flags.p2sh ∧ Flow.goOn = .goOn ∧ output.isPayToScriptHash
    then i.redeem sig pushed flags else pure stack) = _
  simp only [true_and]
  split
  · exact redeem_eq hd sig pushed flags
  · rfl

/-- **Verification without extensions is one observed run.** -/
theorem verifyWith_eq (h : i.extensions = []) (sig output : Program) (flags : Flags) :
    i.verifyWith sig output flags
      = (BuiltIn.verify i sig output flags).observed i.observe := by
  unfold verifyWith BuiltIn.verify
  simp only [Run.observed_bind, Run.observed_ofExcept]
  rw [h, ← verifyBuiltIn_eq h]
  rfl

/-- How one chunk without extensions ends, from any memory. -/
theorem outcome_step (h : i.extensions = []) {c : Context} (hc : c.checker = i.checker)
    (position : Nat) (chunk : Chunk) (s : State) (m : μ) :
    (i.step c position chunk s).outcome m = (BuiltIn.step c position chunk s).result := by
  rw [step_eq (dispatches_of_noExtensions h) hc, Run.outcome_observed]

/-- How evaluation without extensions ends, from any memory. -/
theorem outcome_eval (h : i.extensions = []) (stack : Stack Bytes) (script : Program)
    (flags : Flags) (m : μ) :
    (i.eval stack script flags).outcome m = (BuiltIn.eval i stack script flags).result := by
  rw [eval_eq (dispatches_of_noExtensions h), Run.outcome_observed]

theorem outcome_evalScripts (h : i.extensions = []) (sig output : Program) (flags : Flags)
    (m : μ) : (i.evalScripts sig output flags).outcome m
      = (BuiltIn.evalScripts i sig output flags).result := by
  rw [evalScripts_eq (dispatches_of_noExtensions h), Run.outcome_observed]

/-- How verification without extensions ends under the rules of one's choice. -/
theorem outcome_verify (h : i.extensions = []) (flags : Flags) (sig output : Program) (m : μ) :
    ({ i with baseFlags := flags }.verify sig output).outcome m
      = (BuiltIn.verify i sig output flags).result := by
  have hflags := flags_of_noExtensions (i := { i with baseFlags := flags }) h
  have heq := verifyWith_eq (i := { i with baseFlags := flags }) h sig output flags
  unfold verify
  rw [hflags, heq, Run.outcome_observed]
  rfl

end Interpreter

end SpendScript
