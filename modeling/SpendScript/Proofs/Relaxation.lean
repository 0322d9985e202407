import SpendScript.Proofs.Effect
import SpendScript.Proofs.Relaxation.Opcodes
/-!
# Whole scripts under fewer rules and higher limits

A limit is there to bound the work, and it should do nothing else. A script that keeps to a limit
must not notice that the limit is there: no number may read differently, no count may come out
differently, and no check may be made that is not made under a higher limit. The same is asked of
rules. Two runs of the same scripts are compared here, one in a context and one where less is
forbidden: where the first succeeds, the second does, and with the same stack.

What this file fixes:

* `Relaxation.step`, `Relaxation.steps` -- the comparison along one script, from what
  `Relaxation/Opcodes.lean` says of one chunk.
* `Interpreter.Relaxed` -- an interpreter and a set of rules against others; `Relaxed.eval` compares
  two evaluations.
* `Relaxed.verify` -- the comparison of two verifications. They part where only the larger set of
  rules asks for redemption: the stack that is left is another one, but without the clean-stack rule
  nobody looks at it.
* `Interpreter.limits_monotone` -- what succeeds within limits succeeds within higher ones.
-/

namespace SpendScript

variable {μ : Type}

/-! ## 1. One script -/

namespace Relaxation

variable {c d : Context}

theorem badPush? (h : Relaxation c d) {chunk : Chunk}
    (hnone : Interpreter.badPush? c.limits chunk = none) :
    Interpreter.badPush? d.limits chunk = none := by
  cases chunk with
  | control | operation | disabled | bad => rfl
  | push p =>
    obtain ⟨hwell, hlength⟩ := BuiltIn.badPush?_eq_none_iff.mp hnone
    exact BuiltIn.badPush?_eq_none_iff.mpr ⟨hwell, Nat.le_trans hlength h.limits.push⟩

theorem accept (h : Relaxation c d) (chunk : Chunk) (s : State) :
    Carries (Interpreter.accept c.limits chunk s) (Interpreter.accept d.limits chunk s) := by
  intro s' hs
  obtain ⟨hpush, hforbidden, hops, rfl⟩ := Interpreter.accept_eq_ok_iff.mp hs
  exact Interpreter.accept_eq_ok_iff.mpr ⟨h.badPush? hpush, hforbidden,
    fun hcounted => Nat.le_trans (hops hcounted) h.limits.ops, rfl⟩

/-- **Every step carries over.** -/
theorem step (h : Relaxation c d) (position : Nat) (chunk : Chunk) (s : State) :
    Carries (BuiltIn.step c position chunk s).result
      (BuiltIn.step d position chunk s).result := by
  refine .bindRun (h.accept chunk s) fun s => .bindRun ?_ fun s => ?_
  · unfold BuiltIn.dispatch
    split
    · exact h.chunk position s chunk
    · exact .refl _
  · exact .guarded (Nat.lt_of_le_of_lt h.limits.depth) (.refl _) _ _

/-- **Every run carries over**, by induction on the script. -/
theorem steps (h : Relaxation c d) (position : Nat) (p : Program) (s : State) :
    Carries (BuiltIn.steps c position p s).result (BuiltIn.steps d position p s).result := by
  induction p generalizing position s with
  | nil => exact .refl _
  | cons chunk rest ih =>
    exact .bindRun (h.step position chunk s) fun s => ih (position + 1) s

end Relaxation

/-- **An interpreter under rules, and one that forbids less**, for every script. -/
def Interpreter.Relaxed (i : Interpreter μ) (g : Flags) (j : Interpreter μ) (f : Flags) : Prop :=
  ∀ script, Relaxation (i.context script g) (j.context script f)

namespace Interpreter.Relaxed

variable {i j : Interpreter μ} {f g : Flags}

theorem rules (h : i.Relaxed g j f) : SoftFork f g := (h []).rules

theorem limits (h : i.Relaxed g j f) : i.limits ≤ j.limits := (h []).limits

/-- **An evaluation that succeeds succeeds where less is forbidden**, on the same stack. -/
theorem eval (h : i.Relaxed g j f) (stack : Stack Bytes) (script : Program) :
    Carries (BuiltIn.eval i stack script g).result (BuiltIn.eval j stack script f).result := by
  refine .bindRun ?_ fun _ => .bindRun ((h script).steps 0 script _) fun _ => .refl _
  exact .guarded (Nat.lt_of_le_of_lt h.limits.script) (.refl _) _ _

/-! ## 2. Both scripts -/

theorem redeem (h : i.Relaxed g j f) (sig : Program) (stack : Stack Bytes) :
    Carries (BuiltIn.redeem i sig stack g).result (BuiltIn.redeem j sig stack f).result :=
  .bindRun (.refl _) fun found => .bindRun (h.eval found.2 found.1) fun _ => .refl _

/-- The stack that is left has to be clean where the clean-stack rule is in force. -/
theorem checkCleanStack (h : i.Relaxed g j f) (stack : Stack Bytes) :
    Carries (Interpreter.checkCleanStack g stack) (Interpreter.checkCleanStack f stack) := by
  obtain ⟨_, _, _, _, _, _, _, _, hclean, _⟩ := Flags.subset_iff.mp h.rules.subset
  exact .checked hclean _

/-- What has to hold before anything is run. -/
theorem checkBefore (h : i.Relaxed g j f) (hclean : f.cleanStack → f.p2sh) (sig : Program) :
    Carries (Interpreter.checkBefore g sig) (Interpreter.checkBefore f sig) := by
  obtain ⟨_, _, _, _, _, hpush, _⟩ := Flags.subset_iff.mp h.rules.subset
  unfold Interpreter.checkBefore
  refine .guarded ?_ (.guarded ?_ (.refl _) _ _) _ _
  · simp only [Bool.and_eq_true, Bool.not_eq_true']
    rintro ⟨hc, hp⟩
    rw [hclean hc] at hp
    cases hp
  · simp only [Bool.and_eq_true]
    exact And.imp_left hpush

/-- What follows a true output script: redemption where it is asked for, then the clean-stack
rule. -/
theorem redeem_checkCleanStack (h : i.Relaxed g j f) (hclean : f.cleanStack → f.p2sh)
    (sig output : Program) (pushed stack : Stack Bytes) :
    Carries
      ((if g.p2sh ∧ output.isPayToScriptHash then BuiltIn.redeem i sig pushed g
        else pure stack) >>= fun left => Run.ofExcept (Interpreter.checkCleanStack g left)).result
      ((if f.p2sh ∧ output.isPayToScriptHash then BuiltIn.redeem j sig pushed f
        else pure stack) >>= fun left =>
          Run.ofExcept (Interpreter.checkCleanStack f left)).result := by
  obtain ⟨hp2sh, _⟩ := Flags.subset_iff.mp h.rules.subset
  by_cases hf : f.p2sh = true
  · simp only [hf, hp2sh hf, true_and]
    refine .bindRun ?_ fun left => h.checkCleanStack left
    split
    · exact h.redeem sig pushed
    · exact .refl _
  · -- the two stacks may differ here, and the smaller set does not look at its own
    have hskip : ¬ (f.p2sh = true ∧ output.isPayToScriptHash = true) := fun hr => hf hr.1
    have hidle : Interpreter.checkCleanStack f stack = .ok () := if_neg fun hc => hf (hclean hc)
    rw [if_neg hskip, pure_bind, hidle]
    exact fun _ _ => rfl

/-- Rules that need redemption and leave it out fail before anything is run. -/
theorem verify_of_cleanStack_without_p2sh (hclean : g.cleanStack = true) (hp2sh : g.p2sh = false)
    (sig output : Program) (y : Except Failure Unit) :
    Carries (BuiltIn.verify i sig output g).result y := by
  have hbefore : Interpreter.checkBefore g sig
      = .error (.detailed .cleanStack .cleanStackWithoutP2sh) := by
    unfold Interpreter.checkBefore
    rw [hclean, hp2sh]
    rfl
  unfold BuiltIn.verify
  rw [hbefore]
  exact .of_error _

/-- **A verification that succeeds succeeds where less is forbidden.** The smaller set of rules has
to be one that can be verified under if the larger one is. -/
theorem verify (h : i.Relaxed g j f) (hclean : (g.cleanStack → g.p2sh) → f.cleanStack → f.p2sh)
    (sig output : Program) :
    Carries (BuiltIn.verify i sig output g).result (BuiltIn.verify j sig output f).result := by
  by_cases hg : g.cleanStack → g.p2sh
  · unfold BuiltIn.verify BuiltIn.verifyScripts
    simp only [bind_assoc]
    refine .bindRun (h.checkBefore (hclean hg) sig) fun _ => ?_
    refine .bindRun (h.eval [] sig) fun pushed => ?_
    refine .bindRun (h.eval pushed output) fun stack => ?_
    exact .bindRun (.refl _) fun _ => h.redeem_checkCleanStack (hclean hg) sig output pushed stack
  · rw [Classical.not_imp, Bool.not_eq_true] at hg
    exact verify_of_cleanStack_without_p2sh hg.1 hg.2 sig output _

end Interpreter.Relaxed

/-! ## 3. The interpreter -/

/-- **Success is monotone in the limits.** Without extensions, whatever the rules, the checker and
the stack: what succeeds within limits succeeds where no limit is lower, and an evaluation leaves
the same stack. -/
theorem Interpreter.limits_monotone (i : Interpreter μ) (hext : i.extensions = [])
    {l l' : Limits} (hle : l ≤ l') (m m' : μ) :
    (∀ stack script flags left,
      ({ i with limits := l }.eval stack script flags).outcome m = .ok left →
        ({ i with limits := l' }.eval stack script flags).outcome m' = .ok left) ∧
    (∀ sig output, ({ i with limits := l }.verify sig output).outcome m = .ok () →
      ({ i with limits := l' }.verify sig output).outcome m' = .ok ()) := by
  have h : ∀ flags, Relaxed { i with limits := l } flags { i with limits := l' } flags :=
    fun flags _ => ⟨.refl flags, hle, rfl, rfl, rfl, rfl⟩
  constructor
  · intro stack script flags left hl
    rw [outcome_eval (i := { i with limits := l }) hext] at hl
    rw [outcome_eval (i := { i with limits := l' }) hext]
    exact (h flags).eval stack script left hl
  · intro sig output hl
    have hrun : (BuiltIn.verify { i with limits := l } sig output i.baseFlags).result = .ok () :=
      (outcome_verify (i := { i with limits := l }) hext i.baseFlags sig output m).symm.trans hl
    exact (outcome_verify (i := { i with limits := l' }) hext i.baseFlags sig output m').trans
      ((h i.baseFlags).verify id sig output () hrun)

/-- The sum of what was pushed and three is five. -/
def Program.addsToFive : Program :=
  [.push (.small (.num 3)), .operation .add, .push (.small (.num 5)), .operation .equal]

/-- Limits that the sum of two and three just keeps to. -/
def Limits.tight : Limits where
  maxPushSize := 1
  maxOpCount := 2
  maxStackSize := 2
  maxScriptSize := 4
  maxNumSize := 1
  maxPubKeyCount := 0

/-- What keeps to the tight limits is not changed by the usual ones. -/
theorem Interpreter.limits_monotone_tight :
    plain.extensions = [] ∧ Limits.tight ≤ {} ∧
    ({ plain with limits := .tight }.eval [[2]] .addsToFive .empty).outcome () = .ok [[1]] ∧
    ({ plain with limits := {} }.eval [[2]] .addsToFive .empty).outcome () = .ok [[1]] ∧
    ({ plain with limits := .tight }.verify [.push (.small (.num 2))] .addsToFive).outcome ()
      = .ok () ∧
    ({ plain with limits := {} }.verify [.push (.small (.num 2))] .addsToFive).outcome ()
      = .ok () := by
  have hle : Limits.tight ≤ {} :=
    ⟨by decide, by decide, by decide, by decide, by decide, by decide⟩
  have heval : ({ plain with limits := .tight }.eval [[2]] .addsToFive .empty).outcome ()
      = .ok [[1]] := eq_ok_of_toOption (by decide +kernel)
  have hverify :
      ({ plain with limits := .tight }.verify [.push (.small (.num 2))] .addsToFive).outcome ()
        = .ok () := eq_ok_of_toOption (by decide +kernel)
  obtain ⟨heval', hverify'⟩ := Interpreter.limits_monotone plain rfl hle () ()
  exact ⟨rfl, hle, heval, heval' _ _ _ _ heval, hverify, hverify' _ _ hverify⟩

end SpendScript
