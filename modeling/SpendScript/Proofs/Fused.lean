import SpendScript.Proofs.Conditional
import SpendScript.Proofs.Effect
/-!
# Opcodes that stand for two

Some opcodes stand for a sequence of two: a check and the opcode that asks for a true value, or one
digest after another. They are opcodes of their own, and this file says that on every machine they
do what the sequence does, and fail as it fails.

What this file fixes:

* `Operation.verifying?`, `Operation.digests?` -- which opcode stands for which two.
* `Execute.concluded` -- what a check makes of its answer, in both of its forms, and
  `Execute.exists_answered`, that both forms get the same answer in the same way.
* `BuiltIn.step_check`, `BuiltIn.step_verifying`, `BuiltIn.step_check_verify` -- the check, its
  verifying form, and the check with the opcode after it, as steps that get one answer.
* `Interpreter.fused_eq_pair` -- what stands for two does what the two do, with one operation less.
-/

namespace SpendScript

variable {μ : Type}

/-! ## 1. Which opcode stands for which two -/

/-- The verifying form of a check, and the failure that it has in place of a false value. -/
def Operation.verifying? : Operation → Option (Operation × FailureKind)
  | .equal => some (.equalVerify, .equalVerify)
  | .numEqual => some (.numEqualVerify, .numEqualVerify)
  | .checkSig => some (.checkSigVerify, .checkSigVerify)
  | .checkMultisig => some (.checkMultisigVerify, .checkMultisigVerify)
  | _ => none

/-- The two digests, in order, that a digest of a digest stands for. -/
def Operation.digests? : Operation → Option (Operation × Operation)
  | .hash160 => some (.sha256, .ripemd160)
  | .hash256 => some (.sha256, .sha256)
  | _ => none

namespace Execute

variable {c : Context} {position : Nat} {op fused : Operation} {kind : FailureKind} {s : State}

/-- The keys that count as operations: those that a check of several signatures names, unless they
are more than it may name. -/
def keysCounted (c : Context) (stack : Stack Bytes) (op : Operation) : Nat :=
  let keys := keysNamed c stack (.operation op)
  if keys ≤ c.limits.maxPubKeyCount.toNat then keys else 0

/-! ## 2. One answer for both forms of a check -/

/-- What a check makes of its answer and of the machine without its operands: a value on the stack,
or in its verifying form a failure unless the answer is yes. -/
def concluded (verifying : Option FailureKind) (answered : Run (Bool × State)) : Run State := do
  let (answer, s) ← answered
  let stack ← conclude verifying answer s.stack
  return { s with stack }

/-- What the machine is without the operands of a check. -/
structure WithoutOperands (c : Context) (op : Operation) (s left : State) : Prop where
  depth : left.depth < s.depth
  conditions : left.conditions = s.conditions
  opCount : left.opCount = s.opCount + keysCounted c s.stack op

/-- There is room for the value that takes the place of the operands. -/
theorem WithoutOperands.depth_push_le {left : State} (h : WithoutOperands c op s left) {limit : Nat}
    (hdepth : s.depth ≤ limit) (x : Bytes) :
    ({ left with stack := x :: left.stack } : State).depth ≤ limit := by
  have hfewer := h.depth
  unfold State.depth at hfewer hdepth
  show left.stack.length + 1 + left.alt.length ≤ limit
  omega

/-- Two operands, and a test that both forms make of them. -/
theorem exists_answered_binary (kind : FailureKind) (test : Bytes → Bytes → Except Failure Bool)
    (s : State) :
    ∃ answered : Run (Bool × State),
      Run.ofExcept (s.onStack (Stack.binop fun x1 x2 => ofBool <$> test x1 x2))
        = concluded none answered ∧
      Run.ofExcept (s.onStack (Stack.binfn fun x1 x2 =>
          test x1 x2 >>= fun holds => if holds then .ok () else .error (.plain kind)))
        = concluded (some kind) answered ∧
      ∀ a, answered.result = .ok a → ∃ x2 x1 below, s.stack = x2 :: x1 :: below ∧
        a.2 = { s with stack := below } := by
  match hstack : s.stack with
  | [] | [_] =>
    refine ⟨.fail (.onStack (.needed 2 s.stack.length)), ?_, ?_, nofun⟩
    · unfold State.onStack
      rw [hstack]
      rfl
    · unfold State.onStack
      rw [hstack]
      rfl
  | x2 :: x1 :: below =>
    refine ⟨.ofExcept ((test x1 x2).map fun holds => (holds, { s with stack := below })), ?_, ?_,
      fun a ha => ⟨x2, x1, below, rfl, ?_⟩⟩
    · rw [State.onStack_binop hstack]
      cases test x1 x2 <;> rfl
    · rw [State.onStack_binfn hstack]
      cases test x1 x2 with
      | error e => rfl
      | ok holds => cases holds <;> rfl
    · obtain ⟨holds, _, rfl⟩ := map_eq_ok_iff.mp ha
      rfl

/-- Whether two elements are the same number. -/
def sameNumber (c : Context) (x1 x2 : Bytes) : Except Failure Bool := do
  let a ← c.number x1
  let b ← c.number x2
  return a == b

theorem binaryTest_eq : binaryTest c (fun a b => a == b)
    = Stack.binop fun x1 x2 => ofBool <$> sameNumber c x1 x2 := by
  unfold binaryTest
  congr 1
  funext x1 x2
  unfold sameNumber
  cases c.number x1 with
  | error e => rfl
  | ok a => cases c.number x2 <;> rfl

theorem numEqualVerify_eq : numEqualVerify c = Stack.binfn fun x1 x2 =>
    sameNumber c x1 x2 >>= fun holds =>
      if holds then .ok () else .error (.plain .numEqualVerify) := by
  unfold numEqualVerify
  congr 1
  funext x1 x2
  unfold sameNumber
  cases c.number x1 with
  | error e => rfl
  | ok a =>
    cases c.number x2 with
    | error e => rfl
    | ok b =>
      show (if a = b then _ else _) = if (a == b) = true then _ else _
      by_cases heq : a = b
      · rw [if_pos heq, if_pos (beq_iff_eq.mpr heq)]
        rfl
      · rw [if_neg heq, if_neg fun h => heq (beq_iff_eq.mp h)]
        rfl

theorem withoutOperands_of_stack {left : State} {x2 x1 : Bytes} {below : Stack Bytes}
    (hnone : ∀ stack, keysNamed c stack (.operation op) = 0) (hstack : s.stack = x2 :: x1 :: below)
    (hleft : left = { s with stack := below }) : WithoutOperands c op s left := by
  subst hleft
  refine ⟨?_, rfl, ?_⟩
  · unfold State.depth
    rw [hstack]
    show below.length + s.alt.length < below.length + 1 + 1 + s.alt.length
    omega
  · unfold keysCounted
    rw [hnone]
    rfl

theorem exists_answered_checkSig (s : State) : ∃ answered : Run (Bool × State),
    (∀ verifying, checkSig c verifying s = concluded verifying answered) ∧
    ∀ a, answered.result = .ok a → ∃ key sig below, s.stack = key :: sig :: below ∧
      a.2 = { s with stack := below } := by
  match hstack : s.stack with
  | [] | [_] =>
    refine ⟨.fail (.onStack (.needed 2 s.stack.length)), fun verifying => ?_, nofun⟩
    unfold checkSig
    rw [hstack]
    rfl
  | key :: sig :: below =>
    refine ⟨do
      let answer ← askVetted c sig key (scriptCode c s [sig])
      return (answer, { s with stack := below }), fun verifying => ?_,
      fun a ha => ⟨key, sig, below, rfl, ?_⟩⟩
    · unfold checkSig concluded
      rw [hstack, bind_assoc]
      rfl
    · obtain ⟨answer, _, ha⟩ := Run.eq_ok_of_bind ha
      cases ha
      rfl

theorem exists_answered_checkMultisig (s : State) : ∃ answered : Run (Bool × State),
    (∀ verifying, checkMultisig c verifying s = concluded verifying answered) ∧
    ∀ a, answered.result = .ok a → WithoutOperands c .checkMultisig s a.2 := by
  refine ⟨do
    let counted ← readKeyCount c s
    let s := counted.2
    let l ← readLayout c s.stack counted.1
    let code := scriptCode c s (l.signatures s.stack)
    let answer ← pairUp (askPair c s.stack code) l.keyCount ⟨l.firstSig, l.firstKey, l.sigCount⟩
    let below ← dropOperands c l s.stack
    return (answer, { s with stack := below }), fun verifying => ?_, fun a ha => ?_⟩
  · unfold checkMultisig concluded
    simp only [bind_assoc]
    rfl
  · obtain ⟨⟨keyCount, _⟩, hread, ha⟩ := Run.eq_ok_of_bind ha
    obtain ⟨hkeys, hlimit, _, rfl⟩ := readKeyCount_ok hread
    obtain ⟨l, _, ha⟩ := Run.eq_ok_of_bind ha
    obtain ⟨answer, _, ha⟩ := Run.eq_ok_of_bind ha
    obtain ⟨below, hdrop, ha⟩ := Run.eq_ok_of_bind ha
    cases ha
    obtain ⟨spare, hspare⟩ := dropOperands_ok hdrop
    have hnamed : keysNamed c s.stack (.operation .checkMultisig) = keyCount := hkeys
    refine ⟨?_, rfl, ?_⟩
    · have hlength := congrArg List.length hspare
      rw [List.length_drop, List.length_cons] at hlength
      dsimp only at hlength
      show below.length + s.alt.length < s.stack.length + s.alt.length
      omega
    · unfold keysCounted
      rw [hnamed, if_pos hlimit]

/-- **A check and its verifying form get the same answer**, in the same way and with the same
operands taken off. -/
theorem exists_answered (hop : op.verifying? = some (fused, kind)) (position : Nat) (s : State) :
    ∃ answered : Run (Bool × State),
      operation c position s op = concluded none answered ∧
      operation c position s fused = concluded (some kind) answered ∧
      ∀ a, answered.result = .ok a → WithoutOperands c op s a.2 := by
  cases op
  case equal =>
    cases hop
    obtain ⟨answered, hcheck, hverifying, hleft⟩ :=
      exists_answered_binary .equalVerify (fun x1 x2 => .ok (x1 == x2)) s
    refine ⟨answered, hcheck, ?_, fun a ha => ?_⟩
    · rw [← hverifying]
      rfl
    · obtain ⟨x2, x1, below, hstack, hleft⟩ := hleft a ha
      exact withoutOperands_of_stack (fun _ => rfl) hstack hleft
  case numEqual =>
    cases hop
    obtain ⟨answered, hcheck, hverifying, hleft⟩ :=
      exists_answered_binary .numEqualVerify (sameNumber c) s
    rw [← binaryTest_eq] at hcheck
    rw [← numEqualVerify_eq] at hverifying
    refine ⟨answered, hcheck, hverifying, fun a ha => ?_⟩
    obtain ⟨x2, x1, below, hstack, hleft⟩ := hleft a ha
    exact withoutOperands_of_stack (fun _ => rfl) hstack hleft
  case checkSig =>
    cases hop
    obtain ⟨answered, hchecks, hleft⟩ := exists_answered_checkSig (c := c) s
    refine ⟨answered, hchecks none, hchecks (some .checkSigVerify), fun a ha => ?_⟩
    obtain ⟨key, sig, below, hstack, hleft⟩ := hleft a ha
    exact withoutOperands_of_stack (fun _ => rfl) hstack hleft
  case checkMultisig =>
    cases hop
    obtain ⟨answered, hchecks, hleft⟩ := exists_answered_checkMultisig (c := c) s
    exact ⟨answered, hchecks none, hchecks (some .checkMultisigVerify), hleft⟩
  all_goals cases hop

end Execute

/-! ## 3. One answer for both sequences -/

namespace BuiltIn

variable {c : Context} {position : Nat} {op fused : Operation} {kind : FailureKind} {s : State}

/-- The value that a check left is taken off if it is true. -/
theorem step_verify {holds : Bool} {below : Stack Bytes} (hstack : s.stack = ofBool holds :: below)
    (hactive : s.isActive) (hops : s.opCount + 1 ≤ c.limits.maxOpCount)
    (hdepth : s.depth ≤ c.limits.maxStackSize) (position : Nat) :
    step c position (.operation .verify) s =
      if holds then pure { s with stack := below, opCount := s.opCount + 1 }
      else .fail (.plain .verify) := by
  have hverify : Execute.operation c position { s with opCount := s.opCount + 1 } .verify =
      if holds then pure { s with stack := below, opCount := s.opCount + 1 }
      else .fail (.plain .verify) := by
    show Run.ofExcept (State.onStack _ Execute.verify) = _
    unfold State.onStack Execute.verify
    rw [hstack]
    cases holds <;> rfl
  rw [step_operation hactive hops, hverify]
  cases holds with
  | false => rfl
  | true =>
    show Run.ofExcept (Interpreter.checkDepth c.limits _) = _
    exact checkDepth_of_le (depth_below hstack hdepth)

section Check

variable {answered : Run (Bool × State)}
variable (hactive : s.isActive) (hdepth : s.depth ≤ c.limits.maxStackSize)
  (hops : s.opCount + 2 + Execute.keysCounted c s.stack op ≤ c.limits.maxOpCount)
  (hleft : ∀ a, answered.result = .ok a →
    Execute.WithoutOperands c op { s with opCount := s.opCount + 1 } a.2)
include hactive hdepth hops hleft

/-- **A check** puts its answer on the stack. -/
theorem step_check
    (h : Execute.operation c position { s with opCount := s.opCount + 1 } op
      = Execute.concluded none answered) :
    step c position (.operation op) s = answered >>= fun a =>
      pure { a.2 with stack := ofBool a.1 :: a.2.stack } := by
  rw [step_operation hactive (by omega), h]
  unfold Execute.concluded
  rw [bind_assoc]
  refine Run.bind_congr fun a ha => ?_
  exact checkDepth_of_le ((hleft a ha).depth_push_le hdepth (ofBool a.1))

/-- **Its verifying form** goes on if the answer is yes. -/
theorem step_verifying
    (h : Execute.operation c position { s with opCount := s.opCount + 1 } fused
      = Execute.concluded (some kind) answered) :
    step c position (.operation fused) s = answered >>= fun a =>
      if a.1 then pure a.2 else .fail (.plain kind) := by
  rw [step_operation hactive (by omega), h]
  unfold Execute.concluded
  rw [bind_assoc]
  refine Run.bind_congr fun ⟨holds, left⟩ ha => ?_
  have hfewer : left.depth < s.depth := (hleft _ ha).depth
  cases holds with
  | false => rfl
  | true => exact checkDepth_of_le (Nat.le_trans (Nat.le_of_lt hfewer) hdepth)

/-- **The check and the opcode after it** go on if the answer is yes, with one operation more. -/
theorem step_check_verify
    (h : Execute.operation c position { s with opCount := s.opCount + 1 } op
      = Execute.concluded none answered) :
    (step c position (.operation op) s >>= step c position (.operation .verify)) =
      answered >>= fun a => if a.1 then pure (a.2.addOps 1) else .fail (.plain .verify) := by
  rw [step_check hactive hdepth hops hleft h, bind_assoc]
  refine Run.bind_congr fun ⟨holds, left⟩ ha => ?_
  have hanswered := hleft _ ha
  have hconditions : left.conditions = s.conditions := hanswered.conditions
  have hopCount : left.opCount = s.opCount + 1 + Execute.keysCounted c s.stack op :=
    hanswered.opCount
  have hleftActive : left.isActive := by
    unfold State.isActive
    rw [hconditions]
    exact hactive
  rw [pure_bind]
  exact step_verify (s := { left with stack := ofBool holds :: left.stack }) rfl hleftActive
    (by dsimp only; omega) (hanswered.depth_push_le hdepth (ofBool holds)) position

end Check

/-! ## 4. Digests of digests -/

/-- A digest takes the place of what was hashed. -/
theorem step_digest {f : Bytes → Bytes}
    (hop : ∀ s, Execute.operation c position s op = .ofExcept (s.onStack (Execute.digest f)))
    (hactive : s.isActive) (hops : s.opCount + 1 ≤ c.limits.maxOpCount)
    (hdepth : s.depth ≤ c.limits.maxStackSize) :
    step c position (.operation op) s =
      match s.stack with
      | x :: below => pure { s with stack := f x :: below, opCount := s.opCount + 1 }
      | [] => .fail (.onStack .popFromEmpty) := by
  rw [step_operation hactive hops, hop]
  unfold State.onStack
  cases hstack : s.stack with
  | nil => rfl
  | cons x below =>
    unfold State.depth at hdepth
    rw [hstack] at hdepth
    exact checkDepth_of_le hdepth

/-- Both digests are functions of the top, and so is the digest of the digest. -/
theorem exists_digests {first second : Operation} (hop : fused.digests? = some (first, second))
    (c : Context) (position : Nat) : ∃ f g : Bytes → Bytes,
      (∀ s, Execute.operation c position s first = .ofExcept (s.onStack (Execute.digest f))) ∧
      (∀ s, Execute.operation c position s second = .ofExcept (s.onStack (Execute.digest g))) ∧
      ∀ s, Execute.operation c position s fused
        = .ofExcept (s.onStack (Execute.digest fun x => g (f x))) := by
  cases fused
  case hash160 => cases hop; exact ⟨_, _, fun _ => rfl, fun _ => rfl, fun _ => rfl⟩
  case hash256 => cases hop; exact ⟨_, _, fun _ => rfl, fun _ => rfl, fun _ => rfl⟩
  all_goals cases hop

/-- **A digest of a digest** is one digest after the other. -/
theorem step_digests {first second : Operation} (hop : fused.digests? = some (first, second))
    (hactive : s.isActive) (hops : s.opCount + 2 ≤ c.limits.maxOpCount)
    (hdepth : s.depth ≤ c.limits.maxStackSize) (position : Nat) :
    (step c position (.operation first) s >>= step c position (.operation second))
      = State.addOps 1 <$> step c position (.operation fused) s := by
  obtain ⟨f, g, hfirst, hsecond, hfused⟩ := exists_digests hop c position
  rw [step_digest hfirst hactive (by omega) hdepth, step_digest hfused hactive (by omega) hdepth]
  cases hstack : s.stack with
  | nil => rfl
  | cons x below =>
    have hbetween : ({ s with stack := f x :: below, opCount := s.opCount + 1 } : State).depth
        ≤ c.limits.maxStackSize := by
      unfold State.depth at hdepth
      rw [hstack] at hdepth
      exact hdepth
    have hnext := step_digest (s := { s with stack := f x :: below, opCount := s.opCount + 1 })
      hsecond hactive (by dsimp only; omega) hbetween
    dsimp only
    rw [pure_bind, hnext]
    rfl

end BuiltIn

/-! ## 5. The interpreter -/

namespace Run

/-- How one answer ends in a check, in its verifying form, and in a check with the opcode after
it. -/
theorem answered_verdicts (kind : FailureKind) (answered : Run (Bool × State)) :
    let check := answered >>= fun a => pure { a.2 with stack := ofBool a.1 :: a.2.stack }
    let verifying : Run State := answered >>= fun a =>
      if a.1 then pure a.2 else .fail (.plain kind)
    let pair : Run State := answered >>= fun a =>
      if a.1 then pure (a.2.addOps 1) else .fail (.plain .verify)
    (∀ left, pair.result = .ok left ↔ ∃ s', verifying.result = .ok s' ∧ left = s'.addOps 1) ∧
    (∀ e, verifying.result = .error e ↔ check.result = .error e ∨
      e = .plain kind ∧ (∃ left, check.result = .ok left) ∧
        pair.result = .error (.plain .verify)) := by
  intro check verifying pair
  have hcheck : check.result = _ := result_bind _ _
  have hverifying : verifying.result = _ := result_bind _ _
  have hpair : pair.result = _ := result_bind _ _
  rw [hcheck, hverifying, hpair]
  cases answered.result with
  | error e =>
    refine ⟨fun left => ⟨nofun, fun ⟨_, h, _⟩ => nomatch h⟩, fun e' => ⟨.inl, fun h => ?_⟩⟩
    rcases h with h | ⟨_, ⟨_, h⟩, _⟩
    · exact h
    · cases h
  | ok a =>
    obtain ⟨holds, s⟩ := a
    cases holds with
    | true =>
      refine ⟨fun left => ⟨fun h => ⟨s, rfl, ?_⟩, fun ⟨s', h, hleft⟩ => ?_⟩,
        fun e => ⟨nofun, fun h => ?_⟩⟩
      · cases h; rfl
      · cases h; rw [hleft]; rfl
      · rcases h with h | ⟨_, _, h⟩ <;> cases h
    | false =>
      refine ⟨fun left => ⟨nofun, fun ⟨_, h, _⟩ => nomatch h⟩,
        fun e => ⟨fun h => .inr ⟨?_, ⟨_, rfl⟩, rfl⟩, fun h => ?_⟩⟩
      · cases h; rfl
      · rcases h with h | ⟨rfl, _, _⟩
        · cases h
        · rfl

theorem asked_verdicts (kind : FailureKind) (answered : Run (Bool × State)) :
    (answered >>= fun a => if a.1 then pure a.2 else .fail (.plain kind)).asked
      = (answered >>= fun a =>
          if a.1 then pure (a.2.addOps 1) else .fail (.plain .verify)).asked := by
  rw [asked_bind_of_quiet, asked_bind_of_quiet]
  · rintro ⟨holds, s⟩
    cases holds <;> rfl
  · rintro ⟨holds, s⟩
    cases holds <;> rfl

end Run

/-- Runs that ask the same leave the same memory. -/
theorem Run.memory_observed_congr {α β : Type} {observe : Query → μ → μ} {x : Run α} {y : Run β}
    (h : x.asked = y.asked) (m : μ) :
    (x.observed observe).memory m = (y.observed observe).memory m := by
  unfold observed Session.memory
  rw [h]
  cases x.result <;> cases y.result <;> rfl

/-- **What stands for two does what the two do.** Without extensions, in a branch that is taken,
within the limit on the stacks and with room for both operations and for the keys of a check of
several signatures: a verifying form succeeds where the check and the opcode that asks for a true
value do, and they leave the same machine with one operation less. It fails as the check fails, or
with a failure of its own where the check leaves a false value. Both ask the checker the same
questions. A digest of a digest is one digest after the other, whether it succeeds or not, with one
operation less. -/
theorem Interpreter.fused_eq_pair (i : Interpreter μ) (hext : i.extensions = [])
    (script : Program) (flags : Flags) (position : Nat) (s : State) (hactive : s.isActive)
    (hdepth : s.depth ≤ i.limits.maxStackSize) (m : μ) :
    let c := i.context script flags
    let step := fun op s => i.step c position (.operation op) s
    (∀ op fused kind, op.verifying? = some (fused, kind) →
      s.opCount + 2 + Execute.keysCounted c s.stack op ≤ i.limits.maxOpCount →
      let pair := step op s >>= step .verify
      (∀ left, pair.outcome m = .ok left ↔
        ∃ s', (step fused s).outcome m = .ok s' ∧ left = s'.addOps 1) ∧
      (∀ e, (step fused s).outcome m = .error e ↔ (step op s).outcome m = .error e ∨
        e = .plain kind ∧ (∃ left, (step op s).outcome m = .ok left) ∧
          pair.outcome m = .error (.plain .verify)) ∧
      (step fused s).memory m = pair.memory m) ∧
    (∀ fused first second, fused.digests? = some (first, second) →
      s.opCount + 2 ≤ i.limits.maxOpCount →
      (step first s >>= step second) = State.addOps 1 <$> step fused s) := by
  intro c step
  have hstep : ∀ op s, step op s
      = (BuiltIn.step c position (.operation op) s).observed i.observe :=
    fun op s => step_eq (dispatches_of_noExtensions hext) rfl position (.operation op) s
  have hpair : ∀ first second, (step first s >>= step second)
      = (BuiltIn.step c position (.operation first) s >>=
          BuiltIn.step c position (.operation second)).observed i.observe := by
    intro first second
    rw [Run.observed_bind, hstep, funext (hstep second)]
  constructor
  · intro op fused kind hop hops pair
    obtain ⟨answered, hcheck, hverifying, hleft⟩ :=
      Execute.exists_answered (c := c) hop position { s with opCount := s.opCount + 1 }
    have hplain := BuiltIn.step_check (c := c) hactive hdepth hops hleft hcheck
    have hfused := BuiltIn.step_verifying (c := c) hactive hdepth hops hleft hverifying
    have hboth := BuiltIn.step_check_verify (c := c) hactive hdepth hops hleft hcheck
    have hpairEq : pair = _ := hpair op .verify
    rw [hpairEq, hstep, hstep, Run.outcome_observed, Run.outcome_observed, Run.outcome_observed,
      hboth, hplain, hfused]
    obtain ⟨hsucceeds, hfails⟩ := Run.answered_verdicts kind answered
    exact ⟨hsucceeds, hfails, Run.memory_observed_congr (Run.asked_verdicts kind answered) m⟩
  · intro fused first second hop hops
    rw [hpair, hstep, ← Run.observed_map, BuiltIn.step_digests hop hactive hops hdepth]

/-- Three is the same number in two bytes and in one, which are not the same bytes: the pair goes on
with one operation more. Two numbers that differ are a failure of the verifying form's own. -/
theorem Interpreter.fused_eq_pair_numbers :
    let c := plain.context [] .empty
    let same := State.initial (.ofBottomFirst [[7], [3, 0], [3]])
    let other := State.initial (.ofBottomFirst [[7], [2], [3]])
    Operation.verifying? .numEqual = some (.numEqualVerify, .numEqualVerify) ∧ same.isActive ∧
    same.depth ≤ plain.limits.maxStackSize ∧
    same.opCount + 2 + Execute.keysCounted c same.stack .numEqual ≤ plain.limits.maxOpCount ∧
    (plain.step c 0 (.operation .numEqual) same >>=
        plain.step c 0 (.operation .verify)).outcome ()
      = .ok { stack := [[7]], opCount := 2 } ∧
    (plain.step c 0 (.operation .numEqualVerify) other).outcome ()
      = .error (.plain .numEqualVerify) := by
  intro c same other
  have hop : Operation.verifying? .numEqual = some (.numEqualVerify, .numEqualVerify) := rfl
  have hroom : same.opCount + 2 + Execute.keysCounted c same.stack .numEqual
      ≤ plain.limits.maxOpCount := by decide
  obtain ⟨hsame, -⟩ := fused_eq_pair plain rfl [] .empty 0 same rfl (by decide) ()
  obtain ⟨hother, -⟩ := fused_eq_pair plain rfl [] .empty 0 other rfl (by decide) ()
  obtain ⟨hsucceeds, -, -⟩ := hsame .numEqual _ _ hop hroom
  obtain ⟨-, hfails, -⟩ := hother .numEqual _ _ hop (by decide)
  refine ⟨hop, rfl, by decide, hroom, ?_, ?_⟩
  · exact (hsucceeds _).mpr ⟨{ stack := [[7]], opCount := 1 }, rfl, rfl⟩
  · exact (hfails _).mpr (.inr ⟨rfl, ⟨{ stack := [[], [7]], opCount := 1 }, rfl⟩, rfl⟩)

end SpendScript
