import SpendScript.Proofs.PushOnly
import SpendScript.Template
/-!
# Scripts behind a hash

An output may commit to a script by its hash alone. Whoever spends it pushes the script itself after
what the script needs, and the output script only compares the hash. This file says that nothing is
lost or won that way: spending the hash is running the script itself.

What this file fixes:

* `Push.shortest_pushHash` -- the push of a hash is as short as it can be.
* `BuiltIn.eval_payToScriptHash` -- the output script accepts the script that it commits to, and
  leaves what lies under it alone.
* `BuiltIn.verify_redemption` -- a verification through the hash is the evaluation of the script
  itself, with the clean-stack rule at the end: same outcome, same questions.
* `Interpreter.redemption_transparent` -- a spend through the hash succeeds exactly when the spend
  without it does.
-/

namespace SpendScript

variable {μ : Type}

/-! ## 1. The output script -/

theorem Push.shortest_pushHash {hash : Bytes} (h : hash.length = 20) :
    (Template.pushHash hash).Shortest hash where
  value := rfl
  wellFormed := by
    show 1 ≤ hash.length ∧ hash.length ≤ 0x4b
    omega
  isMinimal := by
    show DataPush.isMinimal ⟨.direct, hash⟩ = true
    unfold DataPush.isMinimal
    dsimp only
    split
    · cases h
    · rfl

theorem Template.isPayToScriptHash_payToScriptHash (hashes : Hashes) (script : Program) :
    (payToScriptHash hashes script).isPayToScriptHash = true :=
  beq_iff_eq.mpr (hashes.length_hash160 script.encode)

theorem Template.byteLength_payToScriptHash (hashes : Hashes) (script : Program) :
    (payToScriptHash hashes script).byteLength = 23 := by
  have hlength := hashes.length_hash160 script.encode
  have hwell : DataPush.WellFormed ⟨.direct, hashes.hash160 script.encode⟩ := by
    show 1 ≤ (hashes.hash160 script.encode).length ∧ (hashes.hash160 script.encode).length ≤ 0x4b
    omega
  have hpush : (DataPush.encode ⟨.direct, hashes.hash160 script.encode⟩).length = 21 := by
    rw [DataPush.encode_of_wellFormed hwell, List.length_append, hlength]
    rfl
  show 1 + ((DataPush.encode ⟨.direct, hashes.hash160 script.encode⟩).length + 1) = 23
  rw [hpush]

namespace BuiltIn

/-- **The output script accepts the script that it commits to**, and leaves what lies under it
alone. -/
theorem eval_payToScriptHash {i : Interpreter μ} (hlimits : i.limits = {}) (script : Program)
    {below : Stack Bytes} (hroom : below.length ≤ 998) (flags : Flags) :
    eval i (script.encode :: below) (Template.payToScriptHash i.hashes script) flags
      = pure ([1] :: below) := by
  let c := i.context (Template.payToScriptHash i.hashes script) flags
  let hash := i.hashes.hash160 script.encode
  have hc : c.limits = {} := hlimits
  have hlength : hash.length = 20 := i.hashes.length_hash160 script.encode
  have hsize : (Template.payToScriptHash i.hashes script).byteLength ≤ i.limits.maxScriptSize := by
    rw [Template.byteLength_payToScriptHash, hlimits]
    decide
  have hhash : step c 0 (.operation .hash160) (.initial (script.encode :: below))
      = pure { stack := hash :: below, opCount := 1 } := by
    refine step_of_chunk ⟨rfl, rfl⟩ (fun _ => ?_) rfl rfl ?_
    · rw [hc]
      exact show 1 ≤ 201 by decide
    · rw [hc]
      exact show below.length + 1 + 0 ≤ 1000 by omega
  have hpush : step c 1 (.push (Template.pushHash hash)) { stack := hash :: below, opCount := 1 }
      = pure { stack := hash :: hash :: below, opCount := 1 } := by
    refine step_push (Push.shortest_pushHash hlength) ?_ rfl ?_ 1
    · rw [hc, hlength]
      exact show 20 ≤ 520 by decide
    · rw [hc]
      exact show below.length + 1 + 0 < 1000 by omega
  have hequal : step c 2 (.operation .equal) { stack := hash :: hash :: below, opCount := 1 }
      = pure { stack := [1] :: below, opCount := 2 } := by
    refine step_of_chunk ⟨rfl, rfl⟩ (fun _ => ?_) rfl ?_ ?_
    · rw [hc]
      exact show 2 ≤ 201 by decide
    · show Run.ofExcept (State.onStack _ Execute.equal) = _
      unfold Execute.equal
      rw [State.onStack_binop rfl, beq_self_eq_true]
      rfl
    · rw [hc]
      exact show below.length + 1 + 0 ≤ 1000 by omega
  have hsteps : steps c 0 (Template.payToScriptHash i.hashes script)
      (.initial (script.encode :: below)) = pure { stack := [1] :: below, opCount := 2 } := by
    show step c 0 (.operation .hash160) _ >>= steps c 1 _ = _
    rw [hhash, pure_bind]
    show step c 1 (.push (Template.pushHash hash)) _ >>= steps c 2 _ = _
    rw [hpush, pure_bind]
    show step c 2 (.operation .equal) _ >>= steps c 3 [] = _
    rw [hequal, pure_bind]
    rfl
  rw [eval_of_byteLength_le hsize, hsteps]
  rfl

/-! ## 2. Both scripts -/

/-- What only pushes is read as the script that it pushed last. -/
theorem redeemScript_of_parse {sig script : Program} {bytes : Bytes} {below : Stack Bytes}
    (hsig : sig.isPushOnly) (hparse : Program.parse bytes = .ok script) :
    Evaluator.redeemScript sig (bytes :: below) = .ok (script, below) := by
  unfold Evaluator.redeemScript
  rw [hsig]
  dsimp only
  rw [hparse]
  rfl

/-- **A verification through the hash is the evaluation of the script itself**, with the clean-stack
rule at the end: it has the same outcome and asks the same questions. -/
theorem verify_redemption {i : Interpreter μ} (hlimits : i.limits = {}) {flags : Flags}
    (hp2sh : flags.p2sh) {sig script : Program} {p : Push} (hsig : sig.isPushOnly)
    (hparse : Program.parse script.encode = .ok script) (hp : p.Shortest script.encode)
    (hlength : script.encode.length ≤ Push.maxElementSize)
    (hsize : Program.byteLength (sig ++ [.push p]) ≤ i.limits.maxScriptSize)
    (hroom : ∀ left, (eval i [] sig flags).result = .ok left → left.length ≤ 998) :
    verify i (sig ++ [.push p]) (Template.payToScriptHash i.hashes script) flags
      = evalScripts i sig script flags >>= fun left =>
          Run.ofExcept (Interpreter.checkCleanStack flags left) := by
  have hpushOnly : Program.isPushOnly (sig ++ [.push p]) := by
    unfold Program.isPushOnly at hsig ⊢
    rw [List.all_append, hsig, Bool.true_and, List.all_cons, List.all_nil, Bool.and_true]
    exact decide_eq_true p.byte_le
  have hbefore : Interpreter.checkBefore flags (sig ++ [.push p]) = .ok () := by
    unfold Interpreter.checkBefore
    rw [hp2sh, hpushOnly, Bool.not_true, Bool.and_false, Bool.and_false]
    rfl
  have hpushed : eval i [] (sig ++ [.push p]) flags
      = (script.encode :: ·) <$> eval i [] sig flags := by
    refine eval_append_push hsig hp ?_ hsize fun left hleft => ?_
    · rw [hlimits]
      exact hlength
    · rw [hlimits]
      exact Nat.lt_of_le_of_lt (hroom left hleft) (by decide)
  have hredeem : flags.p2sh = true ∧
      (Template.payToScriptHash i.hashes script).isPayToScriptHash = true :=
    ⟨hp2sh, Template.isPayToScriptHash_payToScriptHash i.hashes script⟩
  unfold verify verifyScripts evalScripts
  rw [hbefore, hpushed]
  show (_ >>= fun _ => _) >>= _ = _
  rw [bind_map_left, bind_assoc, bind_assoc]
  -- both sides go on with what the signature script left, the one with the script on top of it
  refine Run.bind_congr fun left hleft => ?_
  rw [eval_payToScriptHash hlimits script (hroom left hleft), pure_bind, if_pos hredeem]
  show (redeem i (sig ++ [.push p]) (script.encode :: left) flags) >>= _ = _
  unfold redeem
  rw [redeemScript_of_parse hpushOnly hparse]
  rfl

/-- What two scripts leave was found to be true. -/
theorem requireTrue_of_evalScripts {i : Interpreter μ} {sig output : Program} {flags : Flags}
    {left : Stack Bytes} (h : (evalScripts i sig output flags).result = .ok left) :
    requireTrue left = .ok () := by
  obtain ⟨pushed, _, h⟩ := Run.eq_ok_of_bind h
  obtain ⟨stack, _, h⟩ := Run.eq_ok_of_bind h
  obtain ⟨_, htrue, h⟩ := Run.eq_ok_of_bind h
  cases h
  exact htrue

end BuiltIn

/-! ## 3. The interpreter -/

namespace Interpreter

/-- The clean-stack rule asks for one element, and that it be true. -/
theorem checkCleanStack_eq_ok_iff {flags : Flags} {stack : Stack Bytes} :
    checkCleanStack flags stack = .ok () ↔
      (flags.cleanStack → stack.length = 1 ∧ requireTrue stack = .ok ()) := by
  unfold checkCleanStack
  cases flags.cleanStack with
  | false => exact ⟨fun _ => nofun, fun _ => rfl⟩
  | true =>
    rw [if_pos rfl]
    by_cases hone : stack.length = 1
    · rw [if_neg (not_not_intro hone)]
      exact ⟨fun h _ => ⟨hone, h⟩, fun h => (h rfl).2⟩
    · rw [if_pos hone]
      exact ⟨nofun, fun h => absurd (h rfl).1 hone⟩

/-- **Hiding a script behind its hash changes nothing.** Without extensions, under the default
limits and any rules with redemption, whatever the digest functions are: a script that can be read
and pushed can be spent through its hash with a signature script that only pushes, by pushing it
last, exactly when both scripts succeed one after the other and leave a clean stack where that is
asked for. The signature script may leave room for two elements more, and the pushed script may
make it no longer than it may be. -/
theorem redemption_transparent (i : Interpreter μ) (hext : i.extensions = [])
    (hlimits : i.limits = {}) (hp2sh : i.flags.p2sh) (bytes : Bytes) (script : Program)
    (hparse : Program.parse bytes = .ok script)
    (hlength : script.encode.length ≤ Push.maxElementSize) (sig : Program)
    (hsig : sig.isPushOnly) (m : μ)
    (hroom : ∀ left, (i.eval [] sig i.flags).outcome m = .ok left → left.length ≤ 998) :
    ∃ push, Template.pushScript? script = some push ∧
      (Program.byteLength (sig ++ [.push push]) ≤ i.limits.maxScriptSize →
        ((i.verify (sig ++ [.push push]) (Template.payToScriptHash i.hashes script)).outcome m
            = .ok () ↔
          ∃ left, (i.evalScripts sig script i.flags).outcome m = .ok left ∧
            (i.flags.cleanStack → left.length = 1))) := by
  obtain ⟨hencode, _⟩ := Program.encode_of_parse hparse
  obtain ⟨push, hpush⟩ := Push.exists_element? hlength
  have hshortest : push.Shortest script.encode := by
    unfold Push.element? at hpush
    rw [if_pos hlength] at hpush
    exact Push.of_ofBytes? hpush
  refine ⟨push, hpush, fun hsize => ?_⟩
  have hroom : ∀ left, (BuiltIn.eval i [] sig i.flags).result = .ok left → left.length ≤ 998 := by
    intro left hleft
    rw [← outcome_eval hext [] sig i.flags m] at hleft
    exact hroom left hleft
  have hverify := BuiltIn.verify_redemption hlimits hp2sh hsig (hencode.symm ▸ hparse) hshortest
    hlength hsize hroom
  unfold verify
  rw [verifyWith_eq hext, Run.outcome_observed, hverify, outcome_evalScripts hext]
  constructor
  · intro h
    obtain ⟨left, hleft, hclean⟩ := Run.eq_ok_of_bind h
    exact ⟨left, hleft, fun hrule => (checkCleanStack_eq_ok_iff.mp hclean hrule).1⟩
  · rintro ⟨left, hleft, hone⟩
    have hclean : checkCleanStack i.flags left = .ok () :=
      checkCleanStack_eq_ok_iff.mpr fun hrule =>
        ⟨hone hrule, BuiltIn.requireTrue_of_evalScripts hleft⟩
    rw [Run.result_bind, hleft]
    exact hclean

end Interpreter

namespace Redemption

/-- A script that asks for two numbers whose sum is five. -/
def sumIsFive : Program :=
  [.operation .add, .push (.small (.num 5)), .operation .equal]

/-- The two numbers, pushed. -/
def twoAndThree : Program := [.push (.small (.num 2)), .push (.small (.num 3))]

/-- An interpreter without extensions that asks for clean stacks and short pushes. -/
def interpreter : Interpreter Unit :=
  { baseFlags := { p2sh := true, sigPushOnly := true, minimalData := true, cleanStack := true }
    checker := .rejecting }

end Redemption

open Redemption in
/-- The sum is found to be right behind the hash as it is without one. No digest is computed for
this: it is what it is. -/
theorem Interpreter.redemption_transparent_sum :
    interpreter.extensions = [] ∧ interpreter.limits = {} ∧ interpreter.flags.p2sh ∧
    Program.parse [0x93, 0x55, 0x87] = .ok sumIsFive ∧
    sumIsFive.encode.length ≤ Push.maxElementSize ∧ twoAndThree.isPushOnly ∧
    (∀ left, (interpreter.eval [] twoAndThree interpreter.flags).outcome () = .ok left →
      left.length ≤ 998) ∧
    (interpreter.verify (twoAndThree ++ [.push (.data ⟨.direct, [0x93, 0x55, 0x87]⟩)])
      (Template.payToScriptHash interpreter.hashes sumIsFive)).outcome () = .ok () := by
  have hparse : Program.parse [0x93, 0x55, 0x87] = .ok sumIsFive :=
    Program.parse_encode (p := sumIsFive) (by decide)
  have hlength : sumIsFive.encode.length ≤ Push.maxElementSize := by decide
  have hsig : (interpreter.eval [] twoAndThree interpreter.flags).outcome () = .ok [[3], [2]] :=
    eq_ok_of_toOption (by decide +kernel)
  have hroom : ∀ left, (interpreter.eval [] twoAndThree interpreter.flags).outcome () = .ok left →
      left.length ≤ 998 := by
    intro left hleft
    rw [hsig] at hleft
    cases hleft
    decide
  have hboth : (interpreter.evalScripts twoAndThree sumIsFive interpreter.flags).outcome ()
      = .ok [[1]] := eq_ok_of_toOption (by decide +kernel)
  obtain ⟨push, hpush, hspend⟩ := Interpreter.redemption_transparent interpreter rfl rfl rfl
    [0x93, 0x55, 0x87] sumIsFive hparse hlength twoAndThree (by decide) () hroom
  have hshortest : Template.pushScript? sumIsFive
      = some (.data ⟨.direct, [0x93, 0x55, 0x87]⟩) := by decide
  rw [hshortest] at hpush
  cases hpush
  exact ⟨rfl, rfl, rfl, hparse, hlength, by decide, hroom,
    (hspend (by decide)).mpr ⟨[[1]], hboth, fun _ => rfl⟩⟩

end SpendScript
