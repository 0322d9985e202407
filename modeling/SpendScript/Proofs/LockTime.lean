import SpendScript.Proofs.Pieces
/-!
# Lock times

The lock time opcode compares a number on the stack with the lock time of a transaction. Both are
heights below a threshold and times from it on, and only like is compared with like. The number is
read with a limit of its own, so that every lock time of a transaction can be written.

What this file fixes:

* `SpendContext.HasCome` -- when a lock time has come for a transaction.
* `SpendContext.Admits` -- the same of a stack, whose top is read as a number of five bytes at most.
* `SpendContext.result_checkLockTime_eq_ok_iff` -- the opcode succeeds exactly on such a stack, and
  `lockTimeOpcode_eq_ok_iff`, that it then leaves the machine as it is.
* `SpendContext.Admits.later` -- what is admitted stays admitted, up to the threshold.
* `BuiltIn.eval_checkLockTime` -- the script that asks for a lock time leaves the stack as it was,
  or fails.
* `Interpreter.lockTime_enforced` -- all of it together.
-/

namespace SpendScript

variable {μ : Type}

namespace SpendContext

/-! ## 1. When a lock time has come -/

/-- **A lock time has come** if it is of the sort of the transaction's own, a height or a time, and
not above it, and the input does not opt out. -/
structure HasCome (c : SpendContext) (n : Int) : Prop where
  nonneg : 0 ≤ n
  sameSort : n < 500000000 ↔ c.lockTime < 500000000
  notAbove : n ≤ c.lockTime
  notFinal : c.isFinal = false

instance (c : SpendContext) (n : Int) : Decidable (c.HasCome n) :=
  decidable_of_iff (0 ≤ n ∧ (n < 500000000 ↔ c.lockTime < 500000000) ∧ n ≤ c.lockTime ∧
    c.isFinal = false)
    ⟨fun h => ⟨h.1, h.2.1, h.2.2.1, h.2.2.2⟩,
      fun h => ⟨h.nonneg, h.sameSort, h.notAbove, h.notFinal⟩⟩

/-- **The stack admits the transaction**: its top is a number of at most five bytes, in the shortest
form where the rules ask for it, and a lock time that has come. -/
def Admits (c : SpendContext) (flags : Flags) (stack : Stack Bytes) : Prop :=
  ∃ top below n, stack = top :: below ∧ top.length ≤ 5 ∧ n = ScriptNumber.spelled top ∧
    (flags.minimalData → ScriptNumber.encode n = top) ∧ c.HasCome n

variable {c : SpendContext} {flags : Flags} {stack : Stack Bytes} {n : Int}

/-- The checker refuses what is of the other sort, either way round, and what is above. -/
theorem checkLockTime_iff (hn : 0 ≤ n) : c.checkLockTime n = true ↔ c.HasCome n := by
  unfold checkLockTime lockTimeThreshold
  by_cases hrefused : c.lockTime < 500000000 ∧ 500000000 ≤ n ∨
      500000000 ≤ c.lockTime ∧ n < 500000000 ∨ c.lockTime < n
  · rw [if_pos hrefused]
    refine ⟨nofun, fun h => ?_⟩
    have hsort := h.sameSort
    have hle := h.notAbove
    omega
  · rw [if_neg hrefused, Bool.not_eq_true']
    exact ⟨fun hfinal => ⟨hn, by omega, by omega, hfinal⟩, fun h => h.notFinal⟩

/-- **A later transaction of the same sort** meets every lock time that this one meets. -/
theorem HasCome.later (h : c.HasCome n) {later : Int} (hle : c.lockTime ≤ later)
    (hsort : later < 500000000 ↔ c.lockTime < 500000000) :
    { c with lockTime := later }.HasCome n where
  nonneg := h.nonneg
  sameSort := h.sameSort.trans hsort.symm
  notAbove := Int.le_trans h.notAbove hle
  notFinal := h.notFinal

theorem Admits.later (h : c.Admits flags stack) {later : Int} (hle : c.lockTime ≤ later)
    (hsort : later < 500000000 ↔ c.lockTime < 500000000) :
    { c with lockTime := later }.Admits flags stack := by
  obtain ⟨top, below, n, hstack, hlength, hspelled, hminimal, hcome⟩ := h
  exact ⟨top, below, n, hstack, hlength, hspelled, hminimal, hcome.later hle hsort⟩

/-! ## 2. The opcode -/

/-- What is read as a lock time: five bytes at most, and the shortest form where it is asked for. -/
theorem decode_lockTime_eq_ok_iff {top : Bytes} {minimal : Bool} :
    ScriptNumber.decode top minimal Execute.lockTimeSize = .ok n ↔
      top.length ≤ 5 ∧ n = ScriptNumber.spelled top ∧ (minimal → ScriptNumber.encode n = top) := by
  have hshortest : ScriptNumber.isMinimal top ↔
      ScriptNumber.encode (ScriptNumber.signMagnitude top) = top :=
    ⟨ScriptNumber.encode_signMagnitude, fun h => h ▸ ScriptNumber.isMinimal_encode _⟩
  rw [ScriptNumber.decode_eq_ok_iff, hshortest, ← ScriptNumber.signMagnitude_eq_spelled]
  unfold Execute.lockTimeSize
  constructor
  · rintro ⟨hlength, hminimal, _, rfl⟩
    exact ⟨hlength, rfl, hminimal⟩
  · rintro ⟨hlength, rfl, hminimal⟩
    exact ⟨hlength, hminimal, .inl (by omega), rfl⟩

theorem result_checkLockTime_of_decode {checker : Checker} {top : Bytes} {below : Stack Bytes}
    (h : ScriptNumber.decode top flags.minimalData Execute.lockTimeSize = .ok n) :
    (Execute.checkLockTime flags checker (top :: below)).result =
      if n < 0 then .error (.plain .negativeLockTime)
      else if checker.lockTime n then .ok () else .error (.plain .unsatisfiedLockTime) := by
  rw [BuiltIn.checkLockTime_of_decode h]
  by_cases hneg : n < 0
  · rw [if_pos hneg, if_pos hneg]
    rfl
  · rw [if_neg hneg, if_neg hneg, Run.result_bind]
    show (if checker.lockTime n then pure () else Run.fail _ : Run Unit).result = _
    cases checker.lockTime n <;> rfl

/-- **The check succeeds exactly on a stack that admits the transaction.** -/
theorem result_checkLockTime_eq_ok_iff :
    (Execute.checkLockTime flags c.checker stack).result = .ok () ↔ c.Admits flags stack := by
  constructor
  · intro h
    cases stack with
    | nil => cases h
    | cons top below =>
      cases hdecode : ScriptNumber.decode top flags.minimalData Execute.lockTimeSize with
      | error e =>
        unfold Execute.checkLockTime at h
        rw [Stack.last_cons] at h
        dsimp only at h
        rw [hdecode] at h
        cases h
      | ok n =>
        obtain ⟨hlength, hspelled, hminimal⟩ := decode_lockTime_eq_ok_iff.mp hdecode
        rw [result_checkLockTime_of_decode hdecode] at h
        split at h
        · cases h
        · next hneg =>
          split at h
          · next hcome =>
            exact ⟨top, below, n, rfl, hlength, hspelled, hminimal,
              (checkLockTime_iff (Int.not_lt.mp hneg)).mp hcome⟩
          · cases h
  · rintro ⟨top, below, n, rfl, hlength, hspelled, hminimal, hcome⟩
    have hanswer : c.checker.lockTime n = true := (checkLockTime_iff hcome.nonneg).mpr hcome
    have hdecode := decode_lockTime_eq_ok_iff.mpr ⟨hlength, hspelled, hminimal⟩
    rw [result_checkLockTime_of_decode hdecode, if_neg (Int.not_lt.mpr hcome.nonneg),
      if_pos hanswer]

/-- **The opcode leaves the machine as it is**, if it succeeds. -/
theorem lockTimeOpcode_eq_ok_iff {context : Context} {position : Nat} {s s' : State}
    (hrule : context.flags.checkLockTimeVerify) (hchecker : context.checker = c.checker) :
    (Execute.operation context position s .checkLockTimeVerify).result = .ok s' ↔
      s' = s ∧ c.Admits context.flags s.stack := by
  show (Execute.lockTimeOpcode context s).result = _ ↔ _
  unfold Execute.lockTimeOpcode
  rw [if_pos hrule, hchecker, Run.result_bind, ← result_checkLockTime_eq_ok_iff]
  cases (Execute.checkLockTime context.flags c.checker s.stack).result with
  | error e => exact ⟨nofun, fun h => nomatch h.2⟩
  | ok _ => exact ⟨fun h => by cases h; exact ⟨rfl, rfl⟩, fun h => by rw [h.1]; rfl⟩

end SpendContext

/-! ## 3. The script -/

/-- The script is never too long. -/
theorem Template.byteLength_checkLockTime_le (lockTime : UInt32) :
    (checkLockTime lockTime).byteLength ≤ 10000 := by
  have hnumber := (shortest_pushNumber (BuiltIn.fits_lockTime lockTime)).length_encode_le
  have hlength := BuiltIn.length_encode_lockTime lockTime
  unfold Execute.lockTimeSize at hlength
  show (pushNumber lockTime.toNat).encode.length + (1 + (1 + 0)) ≤ 10000
  omega

/-- **The script that asks for a lock time** leaves the stack as it was if it has come, and fails
before. -/
theorem BuiltIn.eval_checkLockTime {i : Interpreter μ} {flags : Flags} (hlimits : i.limits = {})
    (hrule : flags.checkLockTimeVerify) (lockTime : UInt32) {stack : Stack Bytes}
    (hroom : stack.length + 1 ≤ 1000) :
    eval i stack (Template.checkLockTime lockTime) flags =
      Run.askLockTime i.checker lockTime.toNat >>= fun come =>
        if come then pure stack else .fail (.plain .unsatisfiedLockTime) := by
  have hc : (i.context (Template.checkLockTime lockTime) flags).limits = {} := hlimits
  refine eval_of_leaves ?_ (leaves_checkLockTime rfl ?_ lockTime hrule ?_ ?_ 0)
  · rw [hlimits]
    exact Template.byteLength_checkLockTime_le lockTime
  · rw [hc]
    exact hroom
  · rw [hc]
    exact show 5 ≤ 520 by decide
  · rw [hc]
    exact show 0 + 2 ≤ 201 by decide

/-- **Lock times are enforced, and nothing else is.** The check succeeds exactly if the top of the
stack is a number of at most five bytes, shortest where the rules ask for it, and a lock time that
has come; the opcode then leaves the machine as it is. It goes on succeeding for later transactions
of the same sort. The script that asks for a lock time accepts every stack with room for one more
element and hands it on, if the lock time has come, and fails if it has not. -/
theorem Interpreter.lockTime_enforced (spend : SpendContext) :
    (∀ (flags : Flags) (stack : Stack Bytes),
      (Execute.checkLockTime flags spend.checker stack).result = .ok () ↔
        spend.Admits flags stack) ∧
    (∀ (c : Context) (position : Nat) (s s' : State), c.checker = spend.checker →
      c.flags.checkLockTimeVerify →
      ((Execute.operation c position s .checkLockTimeVerify).result = .ok s' ↔
        s' = s ∧ spend.Admits c.flags s.stack)) ∧
    (∀ (flags : Flags) (stack : Stack Bytes) (later : Int),
      (Execute.checkLockTime flags spend.checker stack).result = .ok () →
      spend.lockTime ≤ later → (later < 500000000 ↔ spend.lockTime < 500000000) →
      (Execute.checkLockTime flags { spend with lockTime := later }.checker stack).result
        = .ok ()) ∧
    (∀ (i : Interpreter μ) (flags : Flags) (lockTime : UInt32) (stack : Stack Bytes) (m : μ),
      i.extensions = [] → i.limits = {} → i.checker = spend.checker →
      flags.checkLockTimeVerify → stack.length + 1 ≤ 1000 →
      (i.eval stack (Template.checkLockTime lockTime) flags).outcome m =
        if spend.HasCome lockTime.toNat then .ok stack
        else .error (.plain .unsatisfiedLockTime)) := by
  refine ⟨fun _ _ => SpendContext.result_checkLockTime_eq_ok_iff,
    fun _ _ _ _ hchecker hrule => SpendContext.lockTimeOpcode_eq_ok_iff hrule hchecker,
    fun flags stack later h hle hsort => ?later, ?script⟩
  case later =>
    have hadmits := SpendContext.result_checkLockTime_eq_ok_iff.mp h
    exact SpendContext.result_checkLockTime_eq_ok_iff.mpr (hadmits.later hle hsort)
  case script =>
    intro i flags lockTime stack m hext hlimits hchecker hrule hroom
    rw [outcome_eval hext, BuiltIn.eval_checkLockTime hlimits hrule lockTime hroom, hchecker,
      Run.result_bind]
    show (if spend.checkLockTime lockTime.toNat then pure stack
      else Run.fail _ : Run (Stack Bytes)).result = _
    have hanswer := SpendContext.checkLockTime_iff (c := spend) (Int.natCast_nonneg lockTime.toNat)
    by_cases hcome : spend.HasCome lockTime.toNat
    · rw [if_pos hcome, if_pos (hanswer.mpr hcome)]
      rfl
    · rw [if_neg hcome, if_neg (mt hanswer.mp hcome)]
      rfl

namespace TimeThreshold

/-- A transaction with a time of its own, a little after the threshold. -/
def spend : SpendContext :=
  { digest := fun _ _ => none, lockTime := 500000005, isFinal := false }

def interpreter : Interpreter Unit := { baseFlags := .empty, checker := spend.checker }

/-- The lock time opcode is in force. -/
def rules : Flags := { checkLockTimeVerify := true, minimalData := true }

/-- The least time, in four bytes. -/
def threshold : Bytes := [0x00, 0x65, 0xcd, 0x1d]

end TimeThreshold

open TimeThreshold in
/-- The least time has come for a transaction a little later, and for the latest one. The greatest
height is below both, and has not come for either. -/
theorem Interpreter.lockTime_enforced_threshold :
    (interpreter.extensions = [] ∧ interpreter.limits = {} ∧
      interpreter.checker = spend.checker ∧ rules.checkLockTimeVerify) ∧
    (Execute.checkLockTime rules spend.checker [threshold]).result = .ok () ∧
    (Execute.checkLockTime rules { spend with lockTime := 4294967295 }.checker
      [threshold]).result = .ok () ∧
    (Execute.operation (interpreter.context [] rules) 0 (.initial [threshold])
      .checkLockTimeVerify).result = .ok (.initial [threshold]) ∧
    (interpreter.eval [[7]] (Template.checkLockTime 500000000) rules).outcome () = .ok [[7]] ∧
    (interpreter.eval [[7]] (Template.checkLockTime 499999999) rules).outcome ()
      = .error (.plain .unsatisfiedLockTime) := by
  obtain ⟨hcheck, hopcode, hlater, hscript⟩ := @Interpreter.lockTime_enforced Unit spend
  have hadmits : spend.Admits rules [threshold] :=
    ⟨threshold, [], 500000000, rfl, by decide, by decide, fun _ => by decide, by decide⟩
  have hthreshold := (hcheck rules [threshold]).mpr hadmits
  have hevaluate := fun lockTime =>
    hscript interpreter rules lockTime [[7]] () rfl rfl rfl rfl (by decide)
  refine ⟨⟨rfl, rfl, rfl, rfl⟩, hthreshold, ?_, ?_, ?_, ?_⟩
  · exact hlater rules [threshold] 4294967295 hthreshold (by decide) (by decide)
  · exact (hopcode _ 0 _ _ rfl rfl).mpr ⟨rfl, hadmits⟩
  · exact (hevaluate 500000000).trans (if_pos (by decide))
  · exact (hevaluate 499999999).trans (if_neg (by decide))

end SpendScript
