import SpendScript.Proofs.Conditional
import SpendScript.Proofs.PushOnly
import SpendScript.Proofs.ShortestPush
/-!
# What the pieces of a script leave

Standard scripts are put together from pieces that work on the stack alone. What a piece leaves
there is said once, for any stack and any place in a script, and what is said of pieces is put
together as the pieces are.

What this file fixes:

* `BuiltIn.steps_skipped_of_room` -- a part that is skipped, where there is room for what it counts.
* `BuiltIn.Leaves` -- a part of a script leaves on the stack what a run gives, and counts its
  opcodes; `Leaves.append` and `Leaves.guarded` for two parts one after the other.
* `BuiltIn.leaves_branch_onTrue`, `BuiltIn.leaves_branch_onFalse` -- both branches of a conditional
  leave what the branch that is taken leaves.
* `BuiltIn.leaves_checkLockTime`, `BuiltIn.leaves_checkSig`, `BuiltIn.leaves_equals_verify` -- the
  pieces that scripts are made of.
* `BuiltIn.eval_of_leaves` -- a whole script.
-/

namespace SpendScript.BuiltIn

variable {c : Context} {s s' : State} {position : Nat}

/-! ## 1. Skipping where there is room -/

/-- A chunk that passes the checks, whether it is run or skipped, as a step. -/
theorem step_of_dispatch {chunk : Chunk}
    (hpasses : Interpreter.badPush? c.limits chunk = none ∧ Interpreter.forbidden? chunk = none)
    (hops : Interpreter.isCounted chunk → s.opCount + 1 ≤ c.limits.maxOpCount)
    (hdispatch : dispatch c position chunk (s.counted chunk) = pure s')
    (hdepth : s'.depth ≤ c.limits.maxStackSize) : step c position chunk s = pure s' := by
  have haccept : Interpreter.accept c.limits chunk s = .ok (s.counted chunk) :=
    Interpreter.accept_eq_ok_iff.mpr ⟨hpasses.1, hpasses.2, hops, rfl⟩
  unfold step
  rw [haccept]
  show dispatch c position chunk (s.counted chunk) >>= _ = _
  rw [hdispatch, pure_bind, checkDepth_of_le hdepth]

/-- An opcode that opens, switches or closes a branch, where there is room to count it. -/
theorem step_control_of_room {op : Control}
    (hops : s.opCount + 1 ≤ c.limits.maxOpCount)
    (h : Execute.control op { s with opCount := s.opCount + 1 } = .ok s')
    (hdepth : s'.depth ≤ c.limits.maxStackSize) : step c position (.control op) s = pure s' := by
  have hcounted : s.counted (.control op) = { s with opCount := s.opCount + 1 } := by
    cases op <;> rfl
  refine step_of_dispatch ⟨rfl, rfl⟩ (fun _ => hops) ?_ hdepth
  rw [dispatch_control, hcounted, h]
  rfl

/-- **A skipped part of a script, where there is room** for all that it counts: the condition that
is false stays where it is, under those of the branches that were opened since. -/
theorem steps_skipped_of_room {depth depth' : Nat} {p : Program} {outer : Stack Bool}
    (hskip : ∀ chunk ∈ p, chunk.Skippable c.limits) (hnest : p.nesting? depth = some depth')
    (hcond : s.conditions.drop depth = false :: outer)
    (hops : s.opCount + p.countP Interpreter.isCounted ≤ c.limits.maxOpCount)
    (hdepth : s.depth ≤ c.limits.maxStackSize) (position : Nat) :
    ∃ conditions : Stack Bool, conditions.drop depth' = false :: outer ∧
      steps c position p s = pure { s with
        conditions
        opCount := s.opCount + p.countP Interpreter.isCounted } := by
  induction p generalizing depth position s with
  | nil => cases hnest; exact ⟨s.conditions, hcond, rfl⟩
  | cons chunk rest ih =>
    obtain ⟨between, hchunk, hrest⟩ := Program.nesting?_cons hnest
    have hpasses := (hskip chunk List.mem_cons_self).passes
    have hinactive : (s.counted chunk).isActive = false := isActive_of_drop hcond
    rw [List.countP_cons, Nat.add_comm (rest.countP _), ← Nat.add_assoc] at hops ⊢
    have hroom : Interpreter.isCounted chunk → s.opCount + 1 ≤ c.limits.maxOpCount := by
      intro hcounted
      rw [if_pos hcounted] at hops
      omega
    obtain ⟨conditions, hdrop, hdispatch⟩ : ∃ conditions : Stack Bool,
        conditions.drop between = false :: outer ∧
          dispatch c position chunk (s.counted chunk)
            = pure { s.counted chunk with conditions } := by
      cases chunk with
      | control op =>
        obtain ⟨conditions, hdrop, hcontrol⟩ :=
          control_skipped (s := s.counted (.control op)) hchunk hcond hinactive
        exact ⟨conditions, hdrop, by rw [dispatch_control, hcontrol]; rfl⟩
      | push | operation | disabled | bad =>
        cases hchunk
        refine ⟨s.conditions, hcond, ?_⟩
        unfold dispatch
        rw [hinactive]
        rfl
    have hstep : step c position chunk s = pure { s.counted chunk with conditions } :=
      step_of_dispatch hpasses hroom hdispatch hdepth
    obtain ⟨conditions', hdrop', hsteps⟩ := ih (s := { s.counted chunk with conditions })
      (fun d hd => hskip d (List.mem_cons_of_mem chunk hd)) hrest hdrop hops hdepth (position + 1)
    refine ⟨conditions', hdrop', ?_⟩
    rw [steps_cons, hstep, pure_bind, hsteps]
    rfl

/-! ## 2. Parts of a script -/

/-- **A part of a script that works on the stack alone** leaves there what the run on the right
gives, and each opcode of it that counts is counted, taken or skipped. -/
def Leaves (c : Context) (position : Nat) (p : Program) (s : State) (left : Run (Stack Bytes)) :
    Prop :=
  steps c position p s = (fun stack => { s with
    stack
    opCount := s.opCount + p.countP Interpreter.isCounted }) <$> left

namespace Leaves

variable {p q : Program} {left : Run (Stack Bytes)}

/-- **Two parts one after the other**: the second starts from what the first leaves. -/
theorem append {f : Stack Bytes → Run (Stack Bytes)} (hp : Leaves c position p s left)
    (hq : ∀ stack, left.result = .ok stack → Leaves c (position + p.length) q
      { s with stack, opCount := s.opCount + p.countP Interpreter.isCounted } (f stack)) :
    Leaves c position (p ++ q) s (left >>= f) := by
  unfold Leaves at hp ⊢
  rw [steps_append, hp, bind_map_left, map_bind]
  refine Run.bind_congr fun stack hstack => ?_
  rw [hq stack hstack, List.countP_append, Nat.add_assoc]

/-- **A condition and what stands behind it**: where the condition does not hold nothing more is
run. -/
theorem guarded {x : Run Bool} {e : Failure} {stack : Stack Bytes}
    (hp : Leaves c position p s (x >>= fun holds => if holds then pure stack else .fail e))
    (hq : Leaves c (position + p.length) q
      { s with stack, opCount := s.opCount + p.countP Interpreter.isCounted } left) :
    Leaves c position (p ++ q) s
      (x >>= fun holds => if holds then left else .fail e) := by
  have hboth := hp.append (f := fun _ => left) fun found hfound => by
    obtain ⟨holds, _, hfound⟩ := Run.eq_ok_of_bind hfound
    cases holds with
    | false => cases hfound
    | true => cases hfound; exact hq
  rw [bind_assoc] at hboth
  have hsame : ∀ holds : Bool, ((if holds then pure stack else Run.fail e) >>= fun _ => left)
      = if holds then left else .fail e := by
    intro holds
    cases holds <;> rfl
  rw [funext hsame] at hboth
  exact hboth

/-- The stacks are within their limit after a part. -/
theorem depth_le (h : Leaves c position p s left) (hdepth : s.depth ≤ c.limits.maxStackSize)
    {stack : Stack Bytes} (hstack : left.result = .ok stack) :
    stack.length + s.alt.length ≤ c.limits.maxStackSize := by
  have hresult : (steps c position p s).result = .ok { s with
      stack
      opCount := s.opCount + p.countP Interpreter.isCounted } := by
    rw [h, ← bind_pure_comp, Run.result_bind, hstack]
    rfl
  exact depth_le_of_steps hdepth hresult

/-- A push, and what follows it. -/
theorem push_cons {p : Push} {bytes : Bytes} (hp : p.Shortest bytes)
    (hlength : bytes.length ≤ c.limits.maxPushSize) (hactive : s.isActive)
    (hroom : s.depth < c.limits.maxStackSize)
    (hrest : Leaves c (position + 1) q { s with stack := bytes :: s.stack } left) :
    Leaves c position (.push p :: q) s left := by
  unfold Leaves at hrest ⊢
  rw [steps_cons, step_push hp hlength hactive hroom, pure_bind, hrest, List.countP_cons,
    Interpreter.isCounted_push]
  rfl

/-- One operation, of which it is known what it does by itself. -/
theorem operation {op : Operation} (hactive : s.isActive)
    (hops : s.opCount + 1 ≤ c.limits.maxOpCount)
    (hop : Execute.operation c position { s with opCount := s.opCount + 1 } op
      = (fun stack => { s with stack, opCount := s.opCount + 1 }) <$> left)
    (hdepth : ∀ stack, left.result = .ok stack →
      stack.length + s.alt.length ≤ c.limits.maxStackSize) :
    Leaves c position [.operation op] s left := by
  unfold Leaves
  rw [steps_cons, step_operation hactive hops, hop, bind_map_left, bind_assoc, ← bind_pure_comp]
  refine Run.bind_congr fun stack hstack => ?_
  have hwithin : ({ s with stack, opCount := s.opCount + 1 } : State).depth
      ≤ c.limits.maxStackSize := hdepth stack hstack
  rw [checkDepth_of_le hwithin, pure_bind, List.countP_cons, Interpreter.isCounted_operation]
  rfl

end Leaves

/-! ## 3. Branches -/

theorem step_else_of_room {b : Bool} {outer : Stack Bool} (hcond : s.conditions = b :: outer)
    (hops : s.opCount + 1 ≤ c.limits.maxOpCount) (hdepth : s.depth ≤ c.limits.maxStackSize)
    (position : Nat) : step c position (.control .opElse) s
      = pure { s with opCount := s.opCount + 1, conditions := (!b) :: outer } := by
  refine step_control_of_room hops ?_ hdepth
  unfold Execute.control
  rw [hcond]

theorem step_endIf_of_room {b : Bool} {outer : Stack Bool} (hcond : s.conditions = b :: outer)
    (hops : s.opCount + 1 ≤ c.limits.maxOpCount) (hdepth : s.depth ≤ c.limits.maxStackSize)
    (position : Nat) : step c position (.control .opEndIf) s
      = pure { s with opCount := s.opCount + 1, conditions := outer } := by
  refine step_control_of_room hops ?_ hdepth
  unfold Execute.control
  rw [hcond]

theorem countP_branch (onTrue onFalse : Program) :
    (Template.branch onTrue onFalse).countP Interpreter.isCounted =
      onTrue.countP Interpreter.isCounted + onFalse.countP Interpreter.isCounted + 3 := by
  have hopener : Interpreter.isCounted (.control .opIf) = true := rfl
  have helse : Interpreter.isCounted (.control .opElse) = true := rfl
  have hend : Interpreter.isCounted (.control .opEndIf) = true := rfl
  unfold Template.branch
  simp only [List.cons_append, List.append_assoc, List.countP_cons, List.countP_append,
    List.countP_nil, hopener, helse, hend, if_true]
  omega

/-- The second branch is skipped, up to the opcode that closes it. -/
theorem steps_else_skipped {p : Program} {outer : Stack Bool} (hcond : s.conditions = true :: outer)
    (hskip : ∀ chunk ∈ p, chunk.Skippable c.limits) (hbalanced : p.Balanced)
    (hops : s.opCount + p.countP Interpreter.isCounted + 2 ≤ c.limits.maxOpCount)
    (hdepth : s.depth ≤ c.limits.maxStackSize) (position : Nat) :
    steps c position (.control .opElse :: (p ++ [.control .opEndIf])) s = pure { s with
      opCount := s.opCount + p.countP Interpreter.isCounted + 2
      conditions := outer } := by
  have helse := step_else_of_room (c := c) hcond (by omega) hdepth position
  obtain ⟨conditions, hdrop, hskipped⟩ := steps_skipped_of_room hskip hbalanced
    (s := { s with opCount := s.opCount + 1, conditions := false :: outer })
    rfl (by dsimp only; omega) hdepth (position + 1)
  have hend := step_endIf_of_room (c := c) (s := { s with
    opCount := s.opCount + 1 + p.countP Interpreter.isCounted
    conditions }) hdrop (by dsimp only; omega) hdepth
  have hcount : s.opCount + 1 + p.countP Interpreter.isCounted + 1
      = s.opCount + p.countP Interpreter.isCounted + 2 := by omega
  rw [steps_cons, helse, pure_bind, Bool.not_true, steps_append, hskipped, pure_bind, steps_cons,
    hend, pure_bind, hcount]
  rfl

/-- The first branch is skipped, up to the opcode between the two. -/
theorem steps_skipped_else {p : Program} {outer : Stack Bool}
    (hcond : s.conditions = false :: outer) (hskip : ∀ chunk ∈ p, chunk.Skippable c.limits)
    (hbalanced : p.Balanced)
    (hops : s.opCount + p.countP Interpreter.isCounted + 1 ≤ c.limits.maxOpCount)
    (hdepth : s.depth ≤ c.limits.maxStackSize) (position : Nat) :
    steps c position (p ++ [.control .opElse]) s = pure { s with
      opCount := s.opCount + p.countP Interpreter.isCounted + 1
      conditions := true :: outer } := by
  obtain ⟨conditions, hdrop, hskipped⟩ := steps_skipped_of_room hskip hbalanced (s := s)
    hcond (by omega) hdepth position
  have helse := step_else_of_room (c := c) (s := { s with
    opCount := s.opCount + p.countP Interpreter.isCounted
    conditions }) hdrop hops hdepth
  rw [steps_append, hskipped, pure_bind, steps_cons, helse, pure_bind, Bool.not_false]
  rfl

section Branch

variable {onTrue onFalse : Program} {t : Bytes} {below : Stack Bytes} {left : Run (Stack Bytes)}
variable (hactive : s.isActive) (hstack : s.stack = t :: below)
  (hops : s.opCount + (Template.branch onTrue onFalse).countP Interpreter.isCounted
    ≤ c.limits.maxOpCount)
  (hdepth : s.depth ≤ c.limits.maxStackSize)
include hactive hstack hops hdepth

/-- The opcode in front of both branches takes the condition off. -/
theorem step_opIf (position : Nat) : step c position (.control .opIf) s = pure { s with
    stack := below
    opCount := s.opCount + 1
    conditions := truthy t :: s.conditions } := by
  rw [countP_branch] at hops
  refine step_control_of_room (by omega) ?_ (depth_below hstack hdepth)
  have hopen := Execute.openBranch_of_active (s := { s with opCount := s.opCount + 1 })
    hactive hstack true
  rw [beq_true] at hopen
  exact hopen

/-- **A true condition**: what the first branch leaves is left, and the second one is skipped. -/
theorem leaves_branch_onTrue (ht : truthy t = true)
    (hskip : ∀ chunk ∈ onFalse, chunk.Skippable c.limits) (hbalanced : onFalse.Balanced)
    (hbranch : Leaves c (position + 1) onTrue { s with
      stack := below
      opCount := s.opCount + 1
      conditions := true :: s.conditions } left) :
    Leaves c position (Template.branch onTrue onFalse) s left := by
  have hopener := step_opIf hactive hstack hops hdepth position
  have hshorter := depth_below hstack hdepth
  rw [ht] at hopener
  unfold Leaves
  rw [countP_branch] at hops ⊢
  unfold Template.branch
  simp only [List.cons_append, List.append_assoc]
  rw [steps_cons, hopener, pure_bind, steps_append, hbranch, bind_map_left, ← bind_pure_comp]
  refine Run.bind_congr fun stack hresult => ?_
  have hwithin := hbranch.depth_le hshorter hresult
  have hrest := steps_else_skipped (c := c) (s := { s with
    stack
    opCount := s.opCount + 1 + onTrue.countP Interpreter.isCounted
    conditions := true :: s.conditions }) rfl hskip hbalanced (by dsimp only; omega) hwithin
    (position + 1 + onTrue.length)
  have hcount : s.opCount + 1 + onTrue.countP Interpreter.isCounted +
      onFalse.countP Interpreter.isCounted + 2 = s.opCount +
        (onTrue.countP Interpreter.isCounted + onFalse.countP Interpreter.isCounted + 3) := by
    omega
  rw [hcount] at hrest
  exact hrest

/-- **A condition that is not true**: the first branch is skipped, and what the second one leaves is
left. -/
theorem leaves_branch_onFalse (ht : truthy t = false)
    (hskip : ∀ chunk ∈ onTrue, chunk.Skippable c.limits) (hbalanced : onTrue.Balanced)
    (hbranch : Leaves c (position + onTrue.length + 2) onFalse { s with
      stack := below
      opCount := s.opCount + onTrue.countP Interpreter.isCounted + 2
      conditions := true :: s.conditions } left) :
    Leaves c position (Template.branch onTrue onFalse) s left := by
  have hopener := step_opIf hactive hstack hops hdepth position
  have hshorter := depth_below hstack hdepth
  rw [ht] at hopener
  unfold Leaves
  rw [countP_branch] at hops ⊢
  have hskipped := steps_skipped_else (c := c) (s := { s with
    stack := below
    opCount := s.opCount + 1
    conditions := false :: s.conditions }) rfl hskip hbalanced (by dsimp only; omega) hshorter
    (position + 1)
  have hbefore : s.opCount + 1 + onTrue.countP Interpreter.isCounted + 1
      = s.opCount + onTrue.countP Interpreter.isCounted + 2 := by omega
  have hplace : position + 1 + (onTrue ++ [Chunk.control .opElse]).length
      = position + onTrue.length + 2 := by
    rw [List.length_append, List.length_singleton]
    omega
  have hshape : Template.branch onTrue onFalse = .control .opIf ::
      (onTrue ++ [.control .opElse] ++ (onFalse ++ [.control .opEndIf])) := by
    simp only [Template.branch, List.cons_append, List.append_assoc, List.nil_append]
  rw [hbefore] at hskipped
  rw [hshape, steps_cons, hopener, pure_bind, steps_append, hskipped, pure_bind, hplace,
    steps_append, hbranch, bind_map_left, ← bind_pure_comp]
  refine Run.bind_congr fun stack hresult => ?_
  have hwithin := hbranch.depth_le hshorter hresult
  have hend := step_endIf_of_room (c := c) (s := { s with
    stack
    opCount := s.opCount + onTrue.countP Interpreter.isCounted + 2 +
      onFalse.countP Interpreter.isCounted
    conditions := true :: s.conditions }) rfl (by dsimp only; omega) hwithin
    (position + onTrue.length + 2 + onFalse.length)
  have hcount : s.opCount + onTrue.countP Interpreter.isCounted + 2 +
      onFalse.countP Interpreter.isCounted + 1 = s.opCount +
        (onTrue.countP Interpreter.isCounted + onFalse.countP Interpreter.isCounted + 3) := by
    omega
  rw [hcount] at hend
  rw [steps_cons, hend, pure_bind]
  rfl

end Branch

/-! ## 4. Pieces -/

theorem fits_lockTime (lockTime : UInt32) : ScriptNumber.Fits lockTime.toNat := by
  have hbound := lockTime.toNat_lt
  unfold ScriptNumber.Fits ScriptNumber.least
  omega

/-- Five bytes hold every lock time. -/
theorem length_encode_lockTime (lockTime : UInt32) :
    (ScriptNumber.encode lockTime.toNat).length ≤ Execute.lockTimeSize := by
  rw [ScriptNumber.length_encode_le_iff (by decide), Int.natAbs_natCast]
  exact Nat.lt_trans lockTime.toNat_lt (by decide)

/-- What the lock time opcode makes of a number: a negative one is refused before the checker is
asked. -/
theorem checkLockTime_of_decode {flags : Flags} {checker : Checker} {top : Bytes} {n : Int}
    (h : ScriptNumber.decode top flags.minimalData Execute.lockTimeSize = .ok n)
    (below : Stack Bytes) :
    Execute.checkLockTime flags checker (top :: below) =
      if n < 0 then .fail (.plain .negativeLockTime)
      else Run.askLockTime checker n >>= fun come =>
        if come then pure () else .fail (.plain .unsatisfiedLockTime) := by
  unfold Execute.checkLockTime
  rw [Stack.last_cons]
  dsimp only
  rw [h]

/-- The encoding of a lock time is no negative number. -/
theorem checkLockTime_encode (lockTime : UInt32) (below : Stack Bytes) :
    Execute.checkLockTime c.flags c.checker (ScriptNumber.encode lockTime.toNat :: below) =
      Run.askLockTime c.checker lockTime.toNat >>= fun come =>
        if come then pure () else .fail (.plain .unsatisfiedLockTime) := by
  have hdecode := ScriptNumber.decode_encode (fits_lockTime lockTime) c.flags.minimalData
    Execute.lockTimeSize
  rw [if_pos (length_encode_lockTime lockTime)] at hdecode
  rw [checkLockTime_of_decode hdecode, if_neg (Int.not_lt.mpr (Int.natCast_nonneg _))]

/-- A digest takes the place of what was hashed. -/
theorem leaves_hash160 {x : Bytes} {below : Stack Bytes} (hactive : s.isActive)
    (hdepth : s.depth ≤ c.limits.maxStackSize) (hops : s.opCount + 1 ≤ c.limits.maxOpCount)
    (hstack : s.stack = x :: below) (position : Nat) :
    Leaves c position [.operation .hash160] s (pure (c.hashes.hash160 x :: below)) := by
  refine Leaves.operation hactive hops ?_ fun stack hresult => ?_
  · show Run.ofExcept (State.onStack _ (Execute.digest c.hashes.hash160)) = _
    unfold Execute.digest
    rw [State.onStack_unop (s := { s with opCount := s.opCount + 1 }) hstack]
    rfl
  · cases hresult
    unfold State.depth at hdepth
    rw [hstack] at hdepth
    exact hdepth

section Pieces

variable {sig x : Bytes} {below : Stack Bytes} {p : Push}
variable (hactive : s.isActive) (hroom : s.depth < c.limits.maxStackSize)
include hactive hroom

/-- **A lock time** leaves the stack as it was if it has come, and fails before. -/
theorem leaves_checkLockTime (lockTime : UInt32) (hrule : c.flags.checkLockTimeVerify)
    (hpush : Execute.lockTimeSize ≤ c.limits.maxPushSize)
    (hops : s.opCount + 2 ≤ c.limits.maxOpCount) (position : Nat) :
    Leaves c position (Template.checkLockTime lockTime) s
      (Run.askLockTime c.checker lockTime.toNat >>= fun come =>
        if come then pure s.stack else .fail (.plain .unsatisfiedLockTime)) := by
  let encoded := ScriptNumber.encode lockTime.toNat
  have hlength : encoded.length ≤ c.limits.maxPushSize :=
    Nat.le_trans (length_encode_lockTime lockTime) hpush
  have hmore : (encoded :: s.stack).length + s.alt.length ≤ c.limits.maxStackSize := by
    unfold State.depth at hroom
    rw [List.length_cons]
    omega
  have hcome : Leaves c (position + 1) [.operation .checkLockTimeVerify]
      { s with stack := encoded :: s.stack }
      (Run.askLockTime c.checker lockTime.toNat >>= fun come =>
        if come then pure (encoded :: s.stack) else .fail (.plain .unsatisfiedLockTime)) := by
    refine Leaves.operation hactive (by dsimp only; omega) ?_ fun stack hstack => ?_
    · show Execute.lockTimeOpcode c _ = _
      unfold Execute.lockTimeOpcode
      rw [if_pos hrule]
      dsimp only
      rw [checkLockTime_encode, bind_assoc, map_bind]
      congr 1
      funext come
      cases come <;> rfl
    · obtain ⟨come, _, hstack⟩ := Run.eq_ok_of_bind hstack
      cases come with
      | false => cases hstack
      | true => cases hstack; exact hmore
  have hdrop : Leaves c (position + 2) [.operation .drop]
      { s with stack := encoded :: s.stack, opCount := s.opCount + 1 } (pure s.stack) := by
    refine Leaves.operation hactive (by dsimp only; omega) rfl fun stack hstack => ?_
    cases hstack
    exact Nat.le_of_lt hroom
  have hboth := hcome.guarded hdrop
  exact hboth.push_cons (Template.shortest_pushNumber (fits_lockTime lockTime)) hlength hactive
    hroom

/-- **A key under a signature** leaves the answer, if signature and key pass the rules in force. -/
theorem leaves_checkSig {key : Bytes} (hp : p.Shortest key)
    (hlength : key.length ≤ c.limits.maxPushSize) (hops : s.opCount + 1 ≤ c.limits.maxOpCount)
    (hstack : s.stack = sig :: below) (position : Nat) :
    Leaves c position [.push p, .operation .checkSig] s
      ((fun answer => ofBool answer :: below) <$>
        Execute.askVetted c sig key (Execute.scriptCode c s [sig])) := by
  refine Leaves.push_cons hp hlength hactive hroom
    (Leaves.operation hactive hops ?_ fun stack hresult => ?_)
  · show Execute.checkSig c none _ = _
    unfold Execute.checkSig
    rw [hstack]
    dsimp only
    rw [Functor.map_map, ← bind_pure_comp]
    rfl
  · rw [← bind_pure_comp] at hresult
    obtain ⟨answer, _, hresult⟩ := Run.eq_ok_of_bind hresult
    cases hresult
    unfold State.depth at hroom
    rw [hstack] at hroom
    exact Nat.le_of_lt hroom

/-- **A comparison that has to hold** takes the element off. -/
theorem leaves_equals_verify {expected : Bytes} (hp : p.Shortest expected)
    (hlength : expected.length ≤ c.limits.maxPushSize)
    (hops : s.opCount + 1 ≤ c.limits.maxOpCount) (hstack : s.stack = x :: below)
    (position : Nat) :
    Leaves c position (Template.equals p true) s
      (if x == expected then pure below else .fail (.plain .equalVerify)) := by
  refine Leaves.push_cons hp hlength hactive hroom
    (Leaves.operation hactive hops ?_ fun stack hresult => ?_)
  · show Run.ofExcept (State.onStack _ Execute.equalVerify) = _
    unfold Execute.equalVerify
    have hoperands : expected :: s.stack = expected :: x :: below := by rw [hstack]
    rw [State.onStack_binfn (s := { s with
      stack := expected :: s.stack
      opCount := s.opCount + 1 }) hoperands]
    cases x == expected <;> rfl
  · cases heq : x == expected with
    | false => rw [heq] at hresult; cases hresult
    | true =>
      rw [heq] at hresult
      cases hresult
      unfold State.depth at hroom
      rw [hstack, List.length_cons] at hroom
      show below.length + s.alt.length ≤ _
      omega

end Pieces

/-! ## 5. Whole scripts -/

/-- **What a script leaves** is what its evaluation gives, if it is not too long. -/
theorem eval_of_leaves {μ : Type} {i : Interpreter μ} {script : Program} {flags : Flags}
    {stack : Stack Bytes} {left : Run (Stack Bytes)}
    (hsize : script.byteLength ≤ i.limits.maxScriptSize)
    (h : Leaves (i.context script flags) 0 script (.initial stack) left) :
    eval i stack script flags = left := by
  rw [eval_of_byteLength_le hsize, h, bind_map_left]
  exact bind_pure left

end SpendScript.BuiltIn
