import SpendScript.Proofs.Conditional.Nested
import SpendScript.Proofs.Multisig
import SpendScript.Proofs.StackCalls
/-!
# What one chunk changes

Opcodes work on the stacks. The rest of the machine -- the count of operations, the open branches
and the start of the code that signatures cover -- changes in few places, and this file says once
which chunk changes what.

What this file fixes:

* `Interpreter.accept_eq_ok_iff` -- the checks that come before anything is done with a chunk.
* `State.onStack_unop`, `State.onStack_binop` and their like -- functions of the top elements on a
  stack that has them.
* `Execute.onStack_ok` and its like -- what each kind of opcode does when it succeeds.
* `Execute.Effect` -- what a chunk changes beside the stacks, and `Execute.effect_chunk`, that every
  opcode keeps to it.
* `BuiltIn.step_of_passes`, `BuiltIn.step_operation` -- a chunk that passes the checks is run
  with nothing around it but the limit on the stacks.
* `BuiltIn.StepEffect`, `BuiltIn.effect_step` -- the same for one accepted chunk of a script, run or
  skipped.
* `BuiltIn.mem_asked_step` -- what is asked at a chunk, the chunk itself asks.
-/

namespace SpendScript

/-! ## 1. Checks before a chunk -/

/-- The machine after a chunk was counted. -/
def State.counted (chunk : Chunk) (s : State) : State :=
  { s with opCount := s.opCount + if Interpreter.isCounted chunk then 1 else 0 }

@[simp] theorem State.isActive_counted (chunk : Chunk) (s : State) :
    (s.counted chunk).isActive = s.isActive := rfl

/-- **What passes the checks** is counted, and nothing else happens to the machine. -/
theorem Interpreter.accept_eq_ok_iff {limits : Limits} {chunk : Chunk} {s s' : State} :
    accept limits chunk s = .ok s' ↔
      badPush? limits chunk = none ∧ forbidden? chunk = none ∧
      (isCounted chunk → s.opCount + 1 ≤ limits.maxOpCount) ∧ s' = s.counted chunk := by
  unfold accept State.counted
  cases badPush? limits chunk with
  | some e => exact ⟨nofun, fun h => nomatch h.1⟩
  | none =>
    dsimp only
    by_cases hcounted : isCounted chunk = true
    · simp only [hcounted, if_true, true_and, forall_const]
      by_cases hmore : limits.maxOpCount < s.opCount + 1
      · rw [if_pos hmore]
        exact ⟨nofun, fun h => absurd hmore (Nat.not_lt.mpr h.2.1)⟩
      · rw [if_neg hmore]
        cases forbidden? chunk with
        | some e => exact ⟨nofun, fun h => nomatch h.1⟩
        | none =>
          refine ⟨fun h => ⟨rfl, Nat.not_lt.mp hmore, ?_⟩, fun h => ?_⟩
          · cases h; rfl
          · rw [h.2.2]
    · simp only [hcounted]
      cases forbidden? chunk with
      | some e => exact ⟨nofun, fun h => nomatch h.2.1⟩
      | none =>
        refine ⟨fun h => ⟨trivial, rfl, nofun, ?_⟩, fun h => ?_⟩
        · cases h; rfl
        · rw [h.2.2.2]; rfl

theorem Interpreter.isCounted_operation (op : Operation) : isCounted (.operation op) = true := by
  cases op <;> rfl

/-! ## 2. Opcodes -/

namespace State

variable {s : State} {x x1 x2 : Bytes} {below : Stack Bytes}

/-- A function of the top takes its place. -/
theorem onStack_unop (h : s.stack = x :: below) (f : Bytes → Except Failure Bytes) :
    s.onStack (Stack.unop f) = (f x).map fun y => { s with stack := y :: below } := by
  unfold onStack
  rw [h, Stack.unop_cons]
  cases f x <;> rfl

/-- A function of the two top elements, the lower one first, takes them off. -/
theorem onStack_binfn (h : s.stack = x2 :: x1 :: below) (f : Bytes → Bytes → Except Failure Unit) :
    s.onStack (Stack.binfn f) = (f x1 x2).map fun _ => { s with stack := below } := by
  unfold onStack
  rw [h, Stack.binfn_cons]
  cases f x1 x2 <;> rfl

/-- A function of the two top elements, the lower one first, takes their place. -/
theorem onStack_binop (h : s.stack = x2 :: x1 :: below) (f : Bytes → Bytes → Except Failure Bytes) :
    s.onStack (Stack.binop f) = (f x1 x2).map fun y => { s with stack := y :: below } := by
  unfold onStack
  rw [h, Stack.binop_cons]
  cases f x1 x2 <;> rfl

theorem onStack_bind_ok {α : Type} {op : StackOp Bytes α} {a : α} {t : Stack Bytes}
    (h : op s.stack = .ok a t) (f : α → StackOp Bytes Unit) :
    s.onStack (op >>= f) = { s with stack := t }.onStack (f a) := by
  unfold onStack
  rw [EStateM.bind_ok h]

theorem onStack_lift_bind {α : Type} (x : Except Failure α) (f : α → StackOp Bytes Unit) :
    s.onStack (Stack.lift x >>= f) = x >>= fun a => s.onStack (f a) := by
  cases x <;> rfl

end State

/-- Whether the chunk is the separator after which the code starts that signatures cover. -/
def Chunk.isCodeSeparator : Chunk → Bool
  | .operation .codeSeparator => true
  | _ => false

namespace Execute

/-- How many keys a check of several signatures names, and none for any other chunk. -/
def keysNamed (c : Context) (stack : Stack Bytes) : Chunk → Nat
  | .operation .checkMultisig | .operation .checkMultisigVerify => operandCount c stack[0]?
  | _ => 0

/-- **What a chunk changes beside the stacks.** The keys that it names count as operations, a
separator is remembered, and branches are opened and closed one at a time. -/
structure Effect (c : Context) (position : Nat) (chunk : Chunk) (s s' : State) : Prop where
  opCount : s'.opCount = s.opCount + keysNamed c s.stack chunk
  withinOps : s'.opCount = s.opCount ∨ s'.opCount ≤ c.limits.maxOpCount
  beginCode : s'.beginCode = if chunk.isCodeSeparator then position + 1 else s.beginCode
  nesting : chunk.nesting? s.conditions.length = some s'.conditions.length

variable {c : Context} {s s' : State} {position : Nat}

/-- An operation on the stack changes the stack. -/
theorem onStack_ok {op : StackOp Bytes Unit} (h : s.onStack op = .ok s') :
    ∃ stack, op s.stack = .ok () stack ∧ s' = { s with stack } := by
  unfold State.onStack at h
  cases hop : op s.stack with
  | error e _ => rw [hop] at h; cases h
  | ok u stack => rw [hop] at h; cases h; exact ⟨stack, rfl, rfl⟩

theorem upgradable_ok (h : upgradable c s = .ok s') : s' = s := by
  unfold upgradable at h
  split at h
  · cases h
  · cases h; rfl

theorem lockTimeOpcode_ok (h : (lockTimeOpcode c s).result = .ok s') : s' = s := by
  unfold lockTimeOpcode at h
  split at h
  · obtain ⟨_, _, h⟩ := Run.eq_ok_of_bind h
    cases h
    rfl
  · exact upgradable_ok h

theorem toAltStack_ok (h : toAltStack s = .ok s') :
    ∃ x stack, s.stack = x :: stack ∧ s' = { s with stack, alt := x :: s.alt } := by
  unfold toAltStack at h
  cases hstack : s.stack with
  | nil => rw [hstack] at h; cases h
  | cons x stack => rw [hstack] at h; cases h; exact ⟨x, stack, rfl, rfl⟩

theorem fromAltStack_ok (h : fromAltStack s = .ok s') :
    ∃ x alt, s.alt = x :: alt ∧ s' = { s with stack := x :: s.stack, alt } := by
  unfold fromAltStack at h
  cases halt : s.alt with
  | nil => rw [halt] at h; cases h
  | cons x alt => rw [halt] at h; cases h; exact ⟨x, alt, rfl, rfl⟩

/-- An answer goes on the stack, or nothing does. -/
theorem conclude_ok {verifying : Option FailureKind} {answer : Bool} {below stack : Stack Bytes}
    (h : conclude verifying answer below = .ok stack) :
    stack = below ∨ stack = ofBool answer :: below := by
  unfold conclude at h
  split at h
  · cases h; exact .inr rfl
  · split at h
    · cases h; exact .inl rfl
    · cases h

theorem checkSig_ok {verifying : Option FailureKind}
    (h : (checkSig c verifying s).result = .ok s') :
    ∃ key sig below answer stack, s.stack = key :: sig :: below ∧
      (stack = below ∨ stack = ofBool answer :: below) ∧ s' = { s with stack } := by
  unfold checkSig at h
  split at h
  · next key sig below hstack =>
    obtain ⟨answer, _, h⟩ := Run.eq_ok_of_bind h
    obtain ⟨stack, hstack', h⟩ := Run.eq_ok_of_bind h
    cases h
    exact ⟨key, sig, below, answer, stack, hstack, conclude_ok hstack', rfl⟩
  · cases h

/-- What lies under the operands and the spare element. -/
theorem dropOperands_ok {l : MultisigLayout} {stack below : Stack Bytes}
    (h : dropOperands c l stack = .ok below) :
    ∃ spare, stack.drop (l.size - 1) = spare :: below := by
  unfold dropOperands at h
  cases hdrop : stack.drop (l.size - 1) with
  | nil => rw [hdrop] at h; cases h
  | cons spare rest =>
    rw [hdrop] at h
    dsimp only [Stack.pop_cons] at h
    split at h
    · cases h
    · cases h; exact ⟨spare, rfl⟩

theorem checkMultisig_ok {verifying : Option FailureKind}
    (h : (checkMultisig c verifying s).result = .ok s') :
    s.opCount + operandCount c s.stack[0]? ≤ c.limits.maxOpCount ∧
    ∃ n spare below answer stack, s.stack.drop n = spare :: below ∧
      (stack = below ∨ stack = ofBool answer :: below) ∧
      s' = { s with stack, opCount := s.opCount + operandCount c s.stack[0]? } := by
  obtain ⟨⟨keyCount, s₁⟩, hread, h⟩ := Run.eq_ok_of_bind h
  obtain ⟨rfl, _, hops, rfl⟩ := readKeyCount_ok hread
  obtain ⟨l, _, h⟩ := Run.eq_ok_of_bind h
  obtain ⟨answer, _, h⟩ := Run.eq_ok_of_bind h
  obtain ⟨below, hdrop, h⟩ := Run.eq_ok_of_bind h
  obtain ⟨stack, hstack, h⟩ := Run.eq_ok_of_bind h
  obtain ⟨spare, hspare⟩ := dropOperands_ok hdrop
  cases h
  exact ⟨hops, l.size - 1, spare, below, answer, stack, hspare, conclude_ok hstack, rfl⟩

/-! ## 3. The effect of an opcode -/

/-- Opening a branch takes its condition off the stack, or nothing where it is skipped. -/
theorem openBranch_ok {expected : Bool} (h : openBranch expected s = .ok s') :
    ∃ stack condition, (stack = s.stack ∨ ∃ top, s.stack = top :: stack) ∧
      s' = { s with stack, conditions := condition :: s.conditions } := by
  unfold openBranch at h
  split at h
  · cases hstack : s.stack with
    | nil => rw [hstack] at h; cases h
    | cons top stack => rw [hstack] at h; cases h; exact ⟨stack, _, .inr ⟨top, rfl⟩, rfl⟩
  · cases h
    exact ⟨s.stack, false, .inl rfl, rfl⟩

/-- **Opening, switching and closing a branch** changes the open conditions, and takes one element
off the stack at most. -/
theorem control_ok {op : Control} (h : control op s = .ok s') :
    ∃ stack conditions, (stack = s.stack ∨ ∃ top, s.stack = top :: stack) ∧
      (Chunk.control op).nesting? s.conditions.length = some conditions.length ∧
      s' = { s with stack, conditions } := by
  cases op with
  | opIf | opNotIf =>
    obtain ⟨stack, condition, hstack, rfl⟩ := openBranch_ok h
    exact ⟨stack, condition :: s.conditions, hstack, rfl, rfl⟩
  | opElse =>
    unfold control at h
    cases hcond : s.conditions with
    | nil => rw [hcond] at h; cases h
    | cons b rest => rw [hcond] at h; cases h; exact ⟨s.stack, (!b) :: rest, .inl rfl, rfl, rfl⟩
  | opEndIf =>
    unfold control at h
    cases hcond : s.conditions with
    | nil => rw [hcond] at h; cases h
    | cons b rest => rw [hcond] at h; cases h; exact ⟨s.stack, rest, .inl rfl, rfl, rfl⟩

theorem effect_control {op : Control} (h : control op s = .ok s') :
    Effect c position (.control op) s s' := by
  obtain ⟨stack, conditions, _, hnesting, rfl⟩ := control_ok h
  exact ⟨rfl, .inl rfl, rfl, hnesting⟩

/-- **Every operation keeps to its effect.** Most only work on the stacks. -/
theorem effect_operation {op : Operation} (h : (operation c position s op).result = .ok s') :
    Effect c position (.operation op) s s' := by
  cases op
  case ret => cases h
  case nop => cases h; exact ⟨rfl, .inl rfl, rfl, rfl⟩
  case codeSeparator => cases h; exact ⟨rfl, .inl rfl, rfl, rfl⟩
  case nop1 | nop3 | nop4 | nop5 | nop6 | nop7 | nop8 | nop9 | nop10 =>
    obtain rfl := upgradable_ok h
    exact ⟨rfl, .inl rfl, rfl, rfl⟩
  case checkLockTimeVerify =>
    obtain rfl := lockTimeOpcode_ok h
    exact ⟨rfl, .inl rfl, rfl, rfl⟩
  case toAltStack =>
    obtain ⟨_, _, _, rfl⟩ := toAltStack_ok h
    exact ⟨rfl, .inl rfl, rfl, rfl⟩
  case fromAltStack =>
    obtain ⟨_, _, _, rfl⟩ := fromAltStack_ok h
    exact ⟨rfl, .inl rfl, rfl, rfl⟩
  case checkSig | checkSigVerify =>
    obtain ⟨_, _, _, _, _, _, _, rfl⟩ := checkSig_ok h
    exact ⟨rfl, .inl rfl, rfl, rfl⟩
  case checkMultisig | checkMultisigVerify =>
    obtain ⟨hops, _, _, _, _, _, _, _, rfl⟩ := checkMultisig_ok h
    exact ⟨rfl, .inr hops, rfl, rfl⟩
  all_goals
    obtain ⟨_, _, rfl⟩ := onStack_ok h
    exact ⟨rfl, .inl rfl, rfl, rfl⟩

theorem push_ok {p : Push} (h : push c p s = .ok s') :
    (c.flags.minimalData → p.isMinimal) ∧ s' = { s with stack := p.value :: s.stack } := by
  unfold push at h
  split at h
  · cases h
  · next hminimal =>
    cases h
    refine ⟨fun hrule => ?_, rfl⟩
    rw [hrule, Bool.true_and, Bool.not_eq_true', Bool.not_eq_false] at hminimal
    exact hminimal

/-- **Every chunk keeps to its effect.** -/
theorem effect_chunk {chunk : Chunk} (h : (Execute.chunk c position s chunk).result = .ok s') :
    Effect c position chunk s s' := by
  cases chunk with
  | push p =>
    obtain ⟨_, rfl⟩ := push_ok h
    exact ⟨rfl, .inl rfl, rfl, rfl⟩
  | control op => exact effect_control h
  | operation op => exact effect_operation h
  | disabled d => cases h
  | bad b => cases h

end Execute

/-! ## 4. The effect of one accepted chunk -/

namespace BuiltIn

variable {c : Context} {s s' : State} {position : Nat} {chunk : Chunk}

/-- **An accepted chunk** passed the checks, was counted and then dispatched, and left the stacks
within their limit. -/
theorem step_ok (h : (step c position chunk s).result = .ok s') :
    Interpreter.badPush? c.limits chunk = none ∧ Interpreter.forbidden? chunk = none ∧
      (Interpreter.isCounted chunk → s.opCount + 1 ≤ c.limits.maxOpCount) ∧
      (dispatch c position chunk (s.counted chunk)).result = .ok s' ∧
      s'.depth ≤ c.limits.maxStackSize := by
  obtain ⟨accepted, haccept, h⟩ := Run.eq_ok_of_bind h
  obtain ⟨hpush, hforbidden, hops, rfl⟩ := Interpreter.accept_eq_ok_iff.mp haccept
  obtain ⟨done, hdispatch, hcheck⟩ := Run.eq_ok_of_bind h
  obtain ⟨rfl, hdepth⟩ := checkDepth_eq_ok_iff.mp hcheck
  exact ⟨hpush, hforbidden, hops, hdispatch, hdepth⟩

theorem dispatch_of_active (h : s.isActive) :
    dispatch c position chunk s = Execute.chunk c position s chunk := if_pos h

/-- **A chunk that passes the checks** in a branch that is taken is counted and run, and what it
leaves has to be within the limit on the stacks. -/
theorem step_of_passes
    (hpasses : Interpreter.badPush? c.limits chunk = none ∧ Interpreter.forbidden? chunk = none)
    (hops : Interpreter.isCounted chunk → s.opCount + 1 ≤ c.limits.maxOpCount)
    (hactive : s.isActive) :
    step c position chunk s = Execute.chunk c position (s.counted chunk) chunk >>= fun s' =>
      Run.ofExcept (Interpreter.checkDepth c.limits s') := by
  have haccept : Interpreter.accept c.limits chunk s = .ok (s.counted chunk) :=
    Interpreter.accept_eq_ok_iff.mpr ⟨hpasses.1, hpasses.2, hops, rfl⟩
  have hcounted : (s.counted chunk).isActive := hactive
  unfold step
  rw [haccept]
  show dispatch c position chunk (s.counted chunk) >>= _ = _
  rw [dispatch_of_active hcounted]

/-- An operation for which there is room is counted and run, and what it leaves has to be within the
limit on the stacks. -/
theorem step_operation {op : Operation} (hactive : s.isActive)
    (hops : s.opCount + 1 ≤ c.limits.maxOpCount) :
    step c position (.operation op) s =
      Execute.operation c position { s with opCount := s.opCount + 1 } op >>= fun s' =>
        Run.ofExcept (Interpreter.checkDepth c.limits s') := by
  have hcounted : s.counted (.operation op) = { s with opCount := s.opCount + 1 } := by
    unfold State.counted
    rw [Interpreter.isCounted_operation]
    rfl
  rw [step_of_passes ⟨rfl, rfl⟩ (fun _ => hops) hactive, hcounted]
  rfl

/-- An operation for which there is room ends as it does by itself, if what it leaves is within the
limit on the stacks. -/
theorem result_step_operation {op : Operation} {x : Except Failure State} (hactive : s.isActive)
    (hops : s.opCount + 1 ≤ c.limits.maxOpCount)
    (hop : (Execute.operation c position { s with opCount := s.opCount + 1 } op).result = x)
    (hdepth : ∀ s', x = .ok s' → s'.depth ≤ c.limits.maxStackSize) :
    (step c position (.operation op) s).result = x := by
  rw [step_operation hactive hops, Run.result_bind, hop]
  cases x with
  | error e => rfl
  | ok s' =>
    show (Run.ofExcept (Interpreter.checkDepth c.limits s')).result = .ok s'
    rw [checkDepth_of_le (hdepth s' rfl)]
    rfl

/-- **A chunk is run or skipped.** In a branch that is not taken only opcodes that open, switch and
close branches are run, and any other chunk does nothing. -/
theorem dispatch_cases (c : Context) (position : Nat) (chunk : Chunk) (s : State) :
    (dispatch c position chunk s = Execute.chunk c position s chunk ∧
      (s.isActive ∨ ∃ op, chunk = .control op)) ∨
    (dispatch c position chunk s = pure s ∧ s.isActive = false ∧
      ∀ depth, chunk.nesting? depth = some depth) := by
  by_cases hactive : s.isActive = true
  · exact .inl ⟨dispatch_of_active hactive, .inl hactive⟩
  · have hskipped : s.isActive = false := Bool.eq_false_iff.mpr hactive
    unfold dispatch
    rw [hskipped]
    cases chunk with
    | control op => exact .inl ⟨rfl, .inr ⟨op, rfl⟩⟩
    | push | operation | disabled | bad => exact .inr ⟨rfl, rfl, fun _ => rfl⟩

/-- A question that is asked at a chunk is one of the chunk itself, for the checks around it ask
nothing, and neither does what is skipped. -/
theorem mem_asked_step {q : Query} (h : q ∈ (step c position chunk s).asked) :
    q ∈ (Execute.chunk c position (s.counted chunk) chunk).asked := by
  obtain ⟨accepted, haccept, h⟩ := Run.mem_asked_ofExcept_bind h
  obtain ⟨_, _, _, rfl⟩ := Interpreter.accept_eq_ok_iff.mp haccept
  rcases Run.mem_asked_bind h with h | ⟨_, _, h⟩
  · rcases dispatch_cases c position chunk (s.counted chunk) with ⟨hrun, _⟩ | ⟨hidle, _⟩
    · rw [hrun] at h
      exact h
    · rw [hidle] at h
      cases h
  · cases h

/-- What an accepted chunk changes beside the stacks. What is skipped names no keys, and a
separator there is not remembered. -/
structure StepEffect (c : Context) (position : Nat) (chunk : Chunk) (s s' : State) : Prop where
  opCount : s'.opCount = s.opCount + (if Interpreter.isCounted chunk then 1 else 0) +
    if s.isActive then Execute.keysNamed c s.stack chunk else 0
  withinOps : s'.opCount = s.opCount ∨ s'.opCount ≤ c.limits.maxOpCount
  beginCode : s'.beginCode =
    if s.isActive && chunk.isCodeSeparator then position + 1 else s.beginCode
  nesting : chunk.nesting? s.conditions.length = some s'.conditions.length
  depth : s'.depth ≤ c.limits.maxStackSize

/-- **Every accepted chunk keeps to its effect.** -/
theorem effect_step (h : (step c position chunk s).result = .ok s') :
    StepEffect c position chunk s s' := by
  obtain ⟨_, _, hops, hdispatch, hdepth⟩ := step_ok h
  have hwithin : (s.counted chunk).opCount = s.opCount ∨
      (s.counted chunk).opCount ≤ c.limits.maxOpCount := by
    unfold State.counted
    by_cases hcount : Interpreter.isCounted chunk = true
    · rw [if_pos hcount]
      exact .inr (hops hcount)
    · rw [if_neg hcount]
      exact .inl rfl
  -- an opcode that opens, switches or closes a branch is run in a skipped branch too, and then it
  -- must name no keys and be no separator
  have hcases := dispatch_cases c position chunk (s.counted chunk)
  rw [State.isActive_counted] at hcases
  rcases hcases with ⟨hrun, htaken⟩ | ⟨hidle, hskipped, hnesting⟩
  · rw [hrun] at hdispatch
    obtain ⟨hopCount, hkeys, hbegin, hnesting⟩ := Execute.effect_chunk hdispatch
    refine ⟨?opCount, ?withinOps, ?beginCode, hnesting, hdepth⟩
    case opCount =>
      rcases htaken with hactive | ⟨op, rfl⟩
      · rw [if_pos hactive]
        exact hopCount
      · exact hopCount.trans (congrArg _ (ite_self 0).symm)
    case withinOps =>
      rcases hkeys with heq | hle
      · rw [heq]
        exact hwithin
      · exact .inr hle
    case beginCode =>
      rcases htaken with hactive | ⟨op, rfl⟩
      · rw [hactive, Bool.true_and]
        exact hbegin
      · have hseparator : (Chunk.control op).isCodeSeparator = false := rfl
        rw [hseparator, Bool.and_false]
        exact hbegin
  · rw [hidle] at hdispatch
    cases hdispatch
    refine ⟨?_, hwithin, ?_, hnesting _, hdepth⟩
    · rw [hskipped]
      rfl
    · rw [hskipped]
      rfl

end BuiltIn

end SpendScript
