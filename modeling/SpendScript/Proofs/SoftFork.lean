import SpendScript.Proofs.Relaxation
/-!
# Rules are soft forks

A node that does not know of a rule must accept whatever a node accepts that enforces it. Dropping
rules is one way to forbid less, and so this is a case of what `Relaxation.lean` says; what has to
be added is which sets of rules may be compared.

What this file fixes:

* `SoftFork.relaxed` -- the same interpreter under fewer rules forbids less.
* `Interpreter.softFork_safe` -- whatever succeeds under a set of rules succeeds under fewer.
-/

namespace SpendScript

variable {μ : Type}

/-! ## 1. Fewer rules -/

namespace SoftFork

variable {f g : Flags}

theorem relaxed (h : SoftFork f g) (i : Interpreter μ) : i.Relaxed g i f :=
  fun script => h.relaxation (i.context script f)

/-- **An evaluation that succeeds under more rules succeeds under fewer**, on the same stack. -/
theorem eval (h : SoftFork f g) (i : Interpreter μ) (stack : Stack Bytes) (script : Program) :
    Carries (BuiltIn.eval i stack script g).result (BuiltIn.eval i stack script f).result :=
  (h.relaxed i).eval stack script

/-- **A verification that succeeds under more rules succeeds under fewer.** -/
theorem verify (h : SoftFork f g) (hclean : f.cleanStack → f.p2sh) (i : Interpreter μ)
    (sig output : Program) :
    Carries (BuiltIn.verify i sig output g).result (BuiltIn.verify i sig output f).result :=
  (h.relaxed i).verify (fun _ => hclean) sig output

end SoftFork

/-! ## 2. The interpreter -/

/-- **Rules are soft forks.** Without extensions, whatever succeeds under a set of rules succeeds
under fewer, and an evaluation leaves the same stack. Two things are asked of the smaller set: the
clean-stack rule needs redemption, and the lock time opcode must not be both discouraged there and
in force only in the larger set. -/
theorem Interpreter.softFork_safe (i : Interpreter μ) (hext : i.extensions = []) {f g : Flags}
    (hsub : f ⊆ g) (hclean : f.cleanStack → f.p2sh)
    (hlock : f.discourageUpgradableNops → g.checkLockTimeVerify → f.checkLockTimeVerify)
    (m m' : μ) :
    (∀ stack script left, (i.eval stack script g).outcome m = .ok left →
      (i.eval stack script f).outcome m' = .ok left) ∧
    (∀ sig output, ({ i with baseFlags := g }.verify sig output).outcome m = .ok () →
      ({ i with baseFlags := f }.verify sig output).outcome m' = .ok ()) := by
  have h : SoftFork f g := ⟨hsub, hlock⟩
  constructor
  · intro stack script left hg
    rw [outcome_eval hext] at hg ⊢
    exact h.eval i stack script left hg
  · intro sig output hg
    rw [outcome_verify hext] at hg ⊢
    exact h.verify hclean i sig output () hg

namespace SoftFork

/-- An output that asks for the lock time three. -/
def lockedOutput : Program := [.push (.small (.num 3)), .operation .checkLockTimeVerify]

/-- An interpreter for which the lock times up to 500 have come. -/
def lockedInterpreter : Interpreter Unit := { baseFlags := .empty, checker := .table [] 500 }

def rulesBefore : Flags := { p2sh := true, cleanStack := true }

def rulesAfter : Flags :=
  { p2sh := true, cleanStack := true, minimalData := true, checkLockTimeVerify := true }

end SoftFork

open SoftFork in
/-- The lock time opcode checks something under the later rules and nothing under the earlier
ones, and both accept. -/
theorem Interpreter.softFork_safe_lockedOutput :
    lockedInterpreter.extensions = [] ∧ rulesBefore ⊆ rulesAfter ∧
    (rulesBefore.cleanStack → rulesBefore.p2sh) ∧
    (rulesBefore.discourageUpgradableNops → rulesAfter.checkLockTimeVerify →
      rulesBefore.checkLockTimeVerify) ∧
    (lockedInterpreter.eval [] lockedOutput rulesAfter).outcome () = .ok [[3]] ∧
    (lockedInterpreter.eval [] lockedOutput rulesBefore).outcome () = .ok [[3]] ∧
    ({ lockedInterpreter with baseFlags := rulesAfter }.verify [] lockedOutput).outcome ()
      = .ok () ∧
    ({ lockedInterpreter with baseFlags := rulesBefore }.verify [] lockedOutput).outcome ()
      = .ok () := by
  have hsub : rulesBefore ⊆ rulesAfter := by decide
  have hclean : rulesBefore.cleanStack → rulesBefore.p2sh := by decide
  have hlock : rulesBefore.discourageUpgradableNops → rulesAfter.checkLockTimeVerify →
      rulesBefore.checkLockTimeVerify := by decide
  have heval : (lockedInterpreter.eval [] lockedOutput rulesAfter).outcome () = .ok [[3]] := rfl
  have hverify :
      ({ lockedInterpreter with baseFlags := rulesAfter }.verify [] lockedOutput).outcome ()
        = .ok () := rfl
  obtain ⟨heval', hverify'⟩ :=
    Interpreter.softFork_safe lockedInterpreter rfl hsub hclean hlock () ()
  exact ⟨rfl, hsub, hclean, hlock, heval, heval' _ _ _ heval, hverify, hverify' _ _ hverify⟩

end SpendScript
