import SpendScript.Proofs.Effect
import SpendScript.Proofs.NumberEncoding
import SpendScript.Proofs.Questions
import SpendScript.Proofs.Trace
/-!
# How often the checker is asked about signatures

A script can be counted without being run: every opcode that checks signatures counts for as many
questions as it can ask. A check of several signatures takes the number of its keys off the stack,
and the static count takes it from the chunk before, if that pushes a small number. This file says
that the static count is never less than what is really asked.

What this file fixes:

* `Execute.operandCount_small` -- a small number that was pushed is the count that it stands for.
* `State.Follows` -- what the chunk before leaves on the stack, in a branch that is taken.
* `BuiltIn.countP_asked_step`, `BuiltIn.countP_asked_steps` -- one chunk and a whole script ask no
  more than they count for.
* `Interpreter.redeemed?` -- the script that a verification redeems, if it gets that far.
* `Interpreter.signatureCount` -- the bounds for an evaluation and for a verification.
-/

namespace SpendScript

variable {μ : Type}

/-! ## 1. Counts on the stack -/

/-- **A small number stands for itself**, if it can be read at all. -/
theorem Execute.operandCount_small (c : Context) (n : Fin 17) :
    operandCount c (some (SmallValue.num n).value) ≤ n.val := by
  have hspelled : (ScriptNumber.signMagnitude (SmallValue.num n).value).toNat = n.val := by
    revert n; decide
  unfold operandCount
  rw [Option.map_some]
  cases hnumber : c.number (SmallValue.num n).value with
  | error e => exact Nat.zero_le _
  | ok v =>
    obtain ⟨_, _, _, rfl⟩ := ScriptNumber.decode_eq_ok_iff.mp (decode_of_number hnumber)
    exact Nat.le_of_eq hspelled

/-- After a small number that was pushed, it is on the top, unless the branch is skipped. -/
def State.Follows (previous : Option Chunk) (s : State) : Prop :=
  ∀ n, previous = some (.push (.small (.num n))) → s.isActive →
    s.stack[0]? = some (SmallValue.num n).value

namespace BuiltIn

variable {c : Context} {position : Nat} {chunk : Chunk} {previous : Option Chunk} {s s' : State}

theorem follows_step (h : (step c position chunk s).result = .ok s') : s'.Follows (some chunk) := by
  rintro n hchunk hactive
  obtain rfl := Option.some.inj hchunk
  obtain ⟨_, _, _, hdispatch, _⟩ := step_ok h
  rcases dispatch_cases c position (.push (.small (.num n))) (s.counted _) with
    ⟨hrun, _⟩ | ⟨hidle, hskipped, _⟩
  · rw [hrun] at hdispatch
    obtain ⟨_, rfl⟩ := Execute.push_ok hdispatch
    rfl
  · rw [hidle] at hdispatch
    cases hdispatch
    exact absurd hactive (Bool.eq_false_iff.mp hskipped)

/-- **The keys that are named are no more than the chunk before says.** -/
theorem questionLimit_le (hkeys : c.limits.maxPubKeyCount.toNat ≤ Program.maxPubKeyCount)
    (hfollows : s.Follows previous) (hactive : s.isActive) :
    Execute.questionLimit c s.stack chunk ≤ Program.sigOpsOf true previous chunk := by
  -- without a number just before, the limit on keys is what is counted
  have hmany : min (Execute.operandCount c s.stack[0]?) c.limits.maxPubKeyCount.toNat
      ≤ Program.maxPubKeyCount := Nat.le_trans (Nat.min_le_right _ _) hkeys
  have hmultisig : min (Execute.operandCount c s.stack[0]?) c.limits.maxPubKeyCount.toNat
      ≤ Program.sigOpsOf true previous (.operation .checkMultisig) := by
    unfold Program.sigOpsOf
    dsimp only
    split
    · next n =>
      split
      · refine Nat.le_trans (Nat.min_le_left _ _) ?_
        rw [hfollows n rfl hactive]
        exact Execute.operandCount_small c n
      · exact hmany
    · exact hmany
  cases chunk with
  | push | control | disabled | bad => exact Nat.zero_le _
  | operation op =>
    cases op
    case checkSig | checkSigVerify => exact Nat.le_refl 1
    case checkMultisig | checkMultisigVerify => exact hmultisig
    all_goals exact Nat.zero_le _

/-- **One chunk asks no more than it counts for.** -/
theorem countP_asked_step (hkeys : c.limits.maxPubKeyCount.toNat ≤ Program.maxPubKeyCount)
    (hfollows : s.Follows previous) :
    (step c position chunk s).asked.countP Query.isSignature
      ≤ Program.sigOpsOf true previous chunk := by
  refine Run.countP_asked_ofExcept_bind fun accepted haccept => ?_
  obtain ⟨_, _, _, rfl⟩ := Interpreter.accept_eq_ok_iff.mp haccept
  refine Run.countP_asked_bind (n := 0) ?_ fun _ _ => Nat.le_refl 0
  rcases dispatch_cases c position chunk (s.counted chunk) with
    ⟨hrun, hactive | ⟨op, rfl⟩⟩ | ⟨hidle, _⟩
  · rw [hrun]
    exact Nat.le_trans (Execute.countP_asked_chunk position chunk)
      (questionLimit_le hkeys hfollows hactive)
  · rw [hrun]
    exact Nat.zero_le _
  · rw [hidle]
    exact Nat.zero_le _

/-- **A script asks no more than it counts for**, by induction on the script: each chunk finds on
the stack what the chunk before it left. -/
theorem countP_asked_steps (hkeys : c.limits.maxPubKeyCount.toNat ≤ Program.maxPubKeyCount)
    (p : Program) (hfollows : s.Follows previous) :
    (steps c position p s).asked.countP Query.isSignature ≤ Program.sigOpsFrom true previous p := by
  induction p generalizing position previous s with
  | nil => exact Nat.le_refl 0
  | cons chunk rest ih =>
    rw [steps_cons]
    exact Run.countP_asked_bind (countP_asked_step hkeys hfollows)
      fun s' hstep => ih (follows_step hstep)

theorem countP_asked_eval {i : Interpreter μ}
    (hkeys : i.limits.maxPubKeyCount.toNat ≤ Program.maxPubKeyCount) (stack : Stack Bytes)
    (script : Program) (flags : Flags) :
    (eval i stack script flags).asked.countP Query.isSignature ≤ script.sigOpCount true := by
  refine Run.countP_asked_ofExcept_bind fun _ _ => ?_
  refine Run.countP_asked_bind (n := 0) ?_ fun _ _ => Nat.le_refl 0
  exact countP_asked_steps hkeys script fun _ h => nomatch h

end BuiltIn

/-! ## 2. The two static counts -/

namespace Program

theorem sigOpsOf_le (previous : Option Chunk) (chunk : Chunk) :
    sigOpsOf true previous chunk ≤ sigOpsOf false previous chunk := by
  have hmultisig : sigOpsOf true previous (.operation .checkMultisig)
      ≤ sigOpsOf false previous (.operation .checkMultisig) := by
    unfold sigOpsOf
    dsimp only
    split
    · next n =>
      split
      · exact Nat.le_trans (Nat.le_of_lt n.isLt) (show 17 ≤ maxPubKeyCount by decide)
      · exact Nat.le_refl _
    · exact Nat.le_refl _
  cases chunk with
  | push | control | disabled | bad => exact Nat.le_refl _
  | operation op =>
    cases op
    case checkMultisig | checkMultisigVerify => exact hmultisig
    all_goals exact Nat.le_refl _

/-- No chunk counts for more than the most keys there can be. -/
theorem sigOpsOf_le_maxPubKeyCount (accurate : Bool) (previous : Option Chunk) (chunk : Chunk) :
    sigOpsOf accurate previous chunk ≤ maxPubKeyCount := by
  have hmultisig : sigOpsOf false previous (.operation .checkMultisig) ≤ maxPubKeyCount := by
    unfold sigOpsOf
    dsimp only
    split
    · exact Nat.le_refl _
    · exact Nat.le_refl _
  have hmany : sigOpsOf false previous chunk ≤ maxPubKeyCount := by
    cases chunk with
    | push | control | disabled | bad => exact Nat.zero_le _
    | operation op =>
      cases op
      case checkSig | checkSigVerify => exact show 1 ≤ maxPubKeyCount by decide
      case checkMultisig | checkMultisigVerify => exact hmultisig
      all_goals exact Nat.zero_le _
  cases accurate with
  | false => exact hmany
  | true => exact Nat.le_trans (sigOpsOf_le previous chunk) hmany

/-- **A script counts for twenty at most a chunk.** A count of 32 bits cannot wrap around, then,
where twenty times as many chunks would fit. -/
theorem sigOpCount_le_mul_length (p : Program) (accurate : Bool) :
    p.sigOpCount accurate ≤ 20 * p.length := by
  have hfrom : ∀ previous, sigOpsFrom accurate previous p ≤ 20 * p.length := by
    induction p with
    | nil => exact fun _ => Nat.le_refl 0
    | cons chunk rest ih =>
      intro previous
      have hchunk : sigOpsOf accurate previous chunk ≤ 20 :=
        sigOpsOf_le_maxPubKeyCount accurate previous chunk
      have hrest := ih (some chunk)
      unfold sigOpsFrom
      rw [List.length_cons]
      omega
  exact hfrom none

/-- **Counting without the numbers before** counts for no less. -/
theorem sigOpCount_le (p : Program) : p.sigOpCount true ≤ p.sigOpCount false := by
  have hfrom : ∀ previous, sigOpsFrom true previous p ≤ sigOpsFrom false previous p := by
    induction p with
    | nil => exact fun _ => Nat.le_refl 0
    | cons chunk rest ih =>
      exact fun previous => Nat.add_le_add (sigOpsOf_le previous chunk) (ih (some chunk))
  exact hfrom none

end Program

/-! ## 3. The interpreter -/

/-- The script that a verification redeems, if it gets that far: both scripts succeed, the output
script asks for redemption, the signature script only pushes, and what it pushed last can be
read. -/
def Interpreter.redeemed? (i : Interpreter μ) (sig output : Program) (m : μ) : Option Program := do
  (checkBefore i.flags sig).toOption
  let pushed ← ((i.eval [] sig i.flags).outcome m).toOption
  let _ ← ((i.evalScripts sig output i.flags).outcome m).toOption
  if i.flags.p2sh ∧ output.isPayToScriptHash then
    (Evaluator.redeemScript sig pushed).toOption.map Prod.fst
  else none

/-- The questions of a verification are those of its scripts. -/
theorem BuiltIn.countP_asked_verify {i : Interpreter μ} (hext : i.extensions = [])
    (hkeys : i.limits.maxPubKeyCount.toNat ≤ Program.maxPubKeyCount) (sig output : Program)
    (m : μ) :
    (verify i sig output i.flags).asked.countP Query.isSignature
      ≤ sig.sigOpCount true + (output.sigOpCount true
        + (i.redeemed? sig output m).elim 0 (·.sigOpCount true)) := by
  unfold verify verifyScripts
  refine Run.countP_asked_ofExcept_bind fun _ hbefore => ?_
  refine Run.countP_asked_bind (n := 0) ?_ fun _ _ => Nat.le_refl 0
  refine Run.countP_asked_bind (countP_asked_eval hkeys _ _ _) fun pushed hpushed => ?_
  refine Run.countP_asked_bind (countP_asked_eval hkeys _ _ _) fun stack hstack => ?_
  refine Run.countP_asked_ofExcept_bind fun _ htrue => ?_
  split
  · next hredeem =>
    refine Run.countP_asked_ofExcept_bind fun found hfound => ?_
    have hboth : (i.evalScripts sig output i.flags).outcome m = .ok stack := by
      rw [Interpreter.outcome_evalScripts hext]
      unfold evalScripts
      rw [Run.result_bind, hpushed]
      show (eval i pushed output i.flags >>= _).result = _
      rw [Run.result_bind, hstack]
      show (Run.ofExcept (requireTrue stack) >>= _).result = _
      rw [htrue]
      rfl
    have hredeemed : i.redeemed? sig output m = some found.1 := by
      unfold Interpreter.redeemed?
      rw [hbefore, Interpreter.outcome_eval hext, hpushed, hboth]
      show (if i.flags.p2sh ∧ output.isPayToScriptHash
        then (Evaluator.redeemScript sig pushed).toOption.map Prod.fst else none) = _
      rw [if_pos hredeem, hfound]
      rfl
    rw [hredeemed]
    refine Run.countP_asked_bind (n := 0) (countP_asked_eval hkeys _ _ _) fun _ _ => ?_
    exact Run.countP_asked_ofExcept_bind fun _ _ => Nat.le_refl 0
  · exact Nat.zero_le _

/-- **The static count bounds what is asked.** Without extensions, if no more keys may be named than
the static count takes for granted: an evaluation asks the checker about no more signatures than
the script counts for, whether it succeeds or fails, and a verification no more than its two scripts
count for, with the redeemed script if there is one. What a script counts for is at most twenty
times the number of its chunks, so that a count of 32 bits does not wrap around where that fits. -/
theorem Interpreter.signatureCount (i : Interpreter (List Query)) (hi : i.Recording)
    (hkeys : i.limits.maxPubKeyCount.toNat ≤ 20) :
    (∀ (stack : Stack Bytes) (script : Program) (flags : Flags),
      ((i.eval stack script flags).memory []).countP Query.isSignature ≤ script.sigOpCount true) ∧
    (∀ script : Program, script.sigOpCount true ≤ script.sigOpCount false) ∧
    (∀ sig output : Program,
      ((i.verify sig output).memory []).countP Query.isSignature
        ≤ sig.sigOpCount true + output.sigOpCount true
          + (i.redeemed? sig output []).elim 0 (·.sigOpCount true)) ∧
    (∀ (script : Program) (accurate : Bool), script.sigOpCount accurate ≤ 20 * script.length) := by
  refine ⟨fun stack script flags => ?_, Program.sigOpCount_le, fun sig output => ?_,
    Program.sigOpCount_le_mul_length⟩
  · rw [hi.memory_eval]
    exact BuiltIn.countP_asked_eval hkeys stack script flags
  · rw [hi.memory_verify, Nat.add_assoc]
    exact BuiltIn.countP_asked_verify hi.extensions hkeys sig output []

/-- A check of one signature with two keys, where the stack holds all but the count of keys. -/
def Program.twoKeys : Program := [.push (.small (.num 2)), .operation .checkMultisig]

/-- Both keys are tried, which is as often as the static count says. -/
theorem Interpreter.signatureCount_twoKeys :
    recorder.Recording ∧ recorder.limits.maxPubKeyCount.toNat ≤ 20 ∧
    ((recorder.eval [[0x62], [0x61], [1], [0x51], []] .twoKeys .empty).memory []).countP
      Query.isSignature = 2 ∧
    Program.twoKeys.sigOpCount true = 2 ∧ Program.twoKeys.sigOpCount false = 20 ∧
    ((recorder.eval [[0x62], [0x61], [1], [0x51], []] .twoKeys .empty).memory []).countP
      Query.isSignature ≤ Program.twoKeys.sigOpCount true := by
  have hkeys : recorder.limits.maxPubKeyCount.toNat ≤ 20 := by decide
  have hasked : ((recorder.eval [[0x62], [0x61], [1], [0x51], []] .twoKeys .empty).memory []).countP
      Query.isSignature = 2 := by decide +kernel
  obtain ⟨heval, -⟩ := Interpreter.signatureCount recorder recording_recorder hkeys
  exact ⟨recording_recorder, hkeys, hasked, by decide, by decide, heval _ _ _⟩

end SpendScript
