import SpendScript.Proofs.Redemption
/-!
# Verifications that an extension takes over

An extension that takes a verification over may leave it to the default, which runs both scripts one
after the other. That is what the interpreter itself does, but for one thing: the default does not
redeem. Where the output commits to a script by its hash, that script is compared and never run.

What this file fixes:

* `Extension.takingOver`, `Interpreter.takenOver` -- the extension that takes every verification over
  and leaves it to the default, and the interpreter with it alone.
* `Interpreter.verifyUnredeemed` -- both scripts with the rules before and after them.
* `Interpreter.takenOver_verify` -- this is what is verified then, and it is what the interpreter
  verifies without the extension wherever no redemption is due.
* `Interpreter.outcome_verify_takenOver` -- where one is due, the script behind the hash plays no
  part.
-/

namespace SpendScript

variable {μ : Type}

/-- The extension that takes every verification over, and leaves it to the default. -/
def Extension.takingOver : Extension μ := { takesScripts := fun _ _ _ m => (true, m) }

namespace Interpreter

/-- The interpreter with every verification taken over. -/
def takenOver (i : Interpreter μ) : Interpreter μ := { i with extensions := [.takingOver] }

/-- Both scripts one after the other, with the rules before and after them and without redemption. -/
def verifyUnredeemed (i : Interpreter μ) (sig output : Program) : Session μ Unit := do
  Session.lift (checkBefore i.flags sig)
  let stack ← i.evalScripts sig output i.flags
  Session.lift (checkCleanStack i.flags stack)

variable {i : Interpreter μ}

/-! ## 1. What stays as it is -/

/-- The extension asks for no rule. -/
theorem flags_takenOver (h : i.extensions = []) : i.takenOver.flags = i.flags := by
  rw [flags_of_noExtensions h]
  exact Flags.union_empty i.baseFlags

/-- The extension claims no chunk. -/
theorem dispatches_takenOver : i.takenOver.Dispatches := by
  intro c position chunk s _
  unfold dispatch BuiltIn.dispatch
  split
  · rfl
  · cases chunk <;> rfl

/-- Both scripts one after the other are run as they are without the extension. -/
theorem evalScripts_takenOver (h : i.extensions = []) (sig output : Program) (flags : Flags) :
    i.takenOver.evalScripts sig output flags = i.evalScripts sig output flags := by
  rw [evalScripts_eq dispatches_takenOver, evalScripts_eq (dispatches_of_noExtensions h)]
  rfl

theorem verify_takenOver (h : i.extensions = []) (sig output : Program) :
    i.takenOver.verify sig output = i.verifyUnredeemed sig output := by
  unfold verifyUnredeemed
  rw [← flags_takenOver h, ← evalScripts_takenOver h]
  rfl

/-- Where no redemption is due, the interpreter itself verifies like this. -/
theorem verify_of_not_redeemed (h : i.extensions = []) {sig output : Program}
    (hplain : ¬(i.flags.p2sh ∧ output.isPayToScriptHash)) :
    i.verify sig output = i.verifyUnredeemed sig output := by
  have hscripts : BuiltIn.verifyScripts i sig output i.flags
      = BuiltIn.evalScripts i sig output i.flags := by
    unfold BuiltIn.verifyScripts BuiltIn.evalScripts
    simp only [if_neg hplain]
  unfold verify verifyUnredeemed
  rw [verifyWith_eq h, evalScripts_eq (dispatches_of_noExtensions h)]
  unfold BuiltIn.verify
  rw [hscripts]
  simp only [Run.observed_bind, Run.observed_ofExcept]

/-! ## 2. What is verified -/

/-- **A verification that is left to the default** runs both scripts one after the other and asks
for a clean stack where the rules do. Wherever no redemption is due, that is the verification without
the extension: it ends alike, and asks the same questions. -/
theorem takenOver_verify (i : Interpreter μ) (hext : i.extensions = []) (sig output : Program) :
    i.takenOver.verify sig output = i.verifyUnredeemed sig output ∧
    (¬(i.flags.p2sh ∧ output.isPayToScriptHash) →
      i.takenOver.verify sig output = i.verify sig output) := by
  refine ⟨verify_takenOver hext sig output, fun hplain => ?_⟩
  rw [verify_takenOver hext, verify_of_not_redeemed hext hplain]

/-- **Where redemption is due, the script behind the hash plays no part.** Once it is pushed the
verification ends as the rule on clean stacks says of a true value on what lies under the script,
whatever the script is. -/
theorem outcome_verify_takenOver (hext : i.extensions = []) (hlimits : i.limits = {})
    {sig script : Program} {below : Stack Bytes} {m : μ}
    (hbefore : checkBefore i.flags sig = .ok ())
    (hsig : (i.eval [] sig i.flags).outcome m = .ok (script.encode :: below))
    (hroom : below.length ≤ 998) :
    (i.takenOver.verify sig (Template.payToScriptHash i.hashes script)).outcome m
      = checkCleanStack i.flags ([1] :: below) := by
  rw [outcome_eval hext] at hsig
  have hboth : (BuiltIn.evalScripts i sig (Template.payToScriptHash i.hashes script)
      i.flags).result = .ok ([1] :: below) := by
    unfold BuiltIn.evalScripts
    rw [Run.bind_ok hsig, BuiltIn.eval_payToScriptHash hlimits script hroom, pure_bind]
    rfl
  rw [verify_takenOver hext]
  unfold verifyUnredeemed
  rw [hbefore, Session.outcome_bind]
  show (i.evalScripts sig (Template.payToScriptHash i.hashes script) i.flags >>= _).outcome m = _
  rw [Session.outcome_bind, outcome_evalScripts hext, hboth]
  exact Session.outcome_lift _ _

end Interpreter

namespace TakenOver

/-- An interpreter without extensions that redeems. -/
def interpreter : Interpreter Unit := { baseFlags := { p2sh := true }, checker := .rejecting }

/-- A script that pushes zero, and so never succeeds. -/
def unspendable : Program := [.push (.small (.num 0))]

/-- A signature script that pushes the script itself. -/
def pushed : Program := [.push (.data ⟨.direct, unspendable.encode⟩)]

end TakenOver

open TakenOver in
/-- An output without a hash is verified alike with the extension and without it, also under the
rule on redemption. -/
theorem Interpreter.takenOver_verify_plain :
    interpreter.extensions = [] ∧
    ¬(interpreter.flags.p2sh ∧ Program.isPayToScriptHash [.operation .not]) ∧
    interpreter.takenOver.verify unspendable [.operation .not]
      = interpreter.verify unspendable [.operation .not] ∧
    (interpreter.verify unspendable [.operation .not]).outcome () = .ok () := by
  have hplain : ¬(interpreter.flags.p2sh ∧ Program.isPayToScriptHash [.operation .not]) := by decide
  have hverify : (interpreter.verify unspendable [.operation .not]).outcome () = .ok () :=
    eq_ok_of_toOption (by decide +kernel)
  obtain ⟨_, hsame⟩ := Interpreter.takenOver_verify interpreter rfl unspendable [.operation .not]
  exact ⟨rfl, hplain, hsame hplain, hverify⟩

open TakenOver in
/-- **A script that never succeeds is accepted behind its hash** once the verification is taken over
and left to the default; the interpreter itself runs the script and refuses. -/
theorem Interpreter.takenOver_accepts_unspendable :
    (interpreter.takenOver.verify pushed
      (Template.payToScriptHash interpreter.hashes unspendable)).outcome () = .ok () ∧
    (interpreter.verify pushed
      (Template.payToScriptHash interpreter.hashes unspendable)).outcome ()
        = .error (.plain .evalFalse) := by
  have hpushed : (interpreter.eval [] pushed interpreter.flags).outcome ()
      = .ok [unspendable.encode] := eq_ok_of_toOption (by decide +kernel)
  constructor
  · rw [Interpreter.outcome_verify_takenOver rfl rfl rfl hpushed (Nat.zero_le _)]
    rfl
  · have hparse : Program.parse unspendable.encode = .ok unspendable :=
      Program.parse_encode (by decide)
    have hshortest : Push.Shortest (.data ⟨.direct, unspendable.encode⟩) unspendable.encode :=
      ⟨rfl, by decide, by decide⟩
    have hroom : ∀ left, (BuiltIn.eval interpreter [] [] interpreter.flags).result = .ok left →
        left.length ≤ 998 := by
      intro left hleft
      cases hleft
      exact Nat.zero_le _
    have hverify : BuiltIn.verify interpreter
        ([] ++ [.push (.data ⟨.direct, unspendable.encode⟩)])
        (Template.payToScriptHash interpreter.hashes unspendable) interpreter.flags
        = BuiltIn.evalScripts interpreter [] unspendable interpreter.flags >>= fun left =>
            Run.ofExcept (Interpreter.checkCleanStack interpreter.flags left) :=
      BuiltIn.verify_redemption rfl rfl rfl hparse hshortest (by decide) (by decide) hroom
    unfold Interpreter.verify
    rw [Interpreter.verifyWith_eq rfl, Run.outcome_observed]
    exact (congrArg Run.result hverify).trans rfl

end SpendScript
