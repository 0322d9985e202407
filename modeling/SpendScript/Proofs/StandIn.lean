import SpendScript.Extension.LockTime
import SpendScript.Extension.PayToScriptHash
import SpendScript.Proofs.BuiltIn
import SpendScript.Proofs.Serialization
import SpendScript.Template
/-!
# Extensions that stand in for rules

Redemption and the lock time opcode exist twice: as rules of the interpreter and as extensions. The
extension for redemption remembers what a signature script left until the output script has run,
and a verification can fail in between. What it then still remembers must not reach the next one.

What this file fixes:

* `Interpreter.StandsIn` -- an interpreter with the two extensions, in either order, whose observer
  leaves the extensions' memory alone.
* `StandsIn.dispatches` -- every chunk does what it does without extensions.
* `StandsIn.outcome_verifyWith` -- from every memory, so from whatever an earlier verification
  left, a verification ends as it does without extensions. The memory is written before it is
  read: `afterSignatureScript_eq` is the write, `outcome_redeemPending` the read.
* `StandIn.history_eq` -- a whole history of verifications on one interpreter ends, each of them,
  as on a fresh interpreter that has the rules instead.
-/

namespace SpendScript

variable {μ ν : Type}

/-! ## 1. Interpreters with the two extensions -/

/-- The interpreter has both extensions, and its observer does not touch what they remember. -/
structure Interpreter.StandsIn (i : Interpreter μ) (cell : Cell μ PayToScriptHash.Pending) :
    Prop where
  extensions :
    i.extensions = [PayToScriptHash.extension cell, LockTime.extension i.checker i.observe] ∨
    i.extensions = [LockTime.extension i.checker i.observe, PayToScriptHash.extension cell]
  observe : ∀ q m, cell.get (i.observe q m) = cell.get m

namespace Interpreter.StandsIn

open PayToScriptHash

variable {i : Interpreter μ} {cell : Cell μ Pending}

theorem flags_eq (h : i.StandsIn cell) :
    i.flags = i.baseFlags ∪ { p2sh := true, checkLockTimeVerify := true } := by
  unfold flags
  rcases h.extensions with hext | hext <;> rw [hext]
  · exact Flags.union_assoc _ _ _
  · exact Flags.union_assoc _ _ _

/-- Only the lock time opcode is claimed, and only where its rule is in force. -/
theorem firstClaiming_eq (h : i.StandsIn cell) (chunk : Chunk) (flags : Flags) :
    Session.ofState (firstClaiming chunk flags i.extensions) =
      pure (if chunk == .operation .checkLockTimeVerify && flags.checkLockTimeVerify
        then some (LockTime.extension i.checker i.observe) else none) := by
  funext m
  unfold Session.ofState
  rcases h.extensions with hext | hext <;> rw [hext]
  · cases hclaim : chunk == .operation .checkLockTimeVerify && flags.checkLockTimeVerify <;>
      simp only [firstClaiming, LockTime.extension, PayToScriptHash.extension, hclaim] <;> rfl
  · cases hclaim : chunk == .operation .checkLockTimeVerify && flags.checkLockTimeVerify <;>
      simp only [firstClaiming, LockTime.extension, PayToScriptHash.extension, hclaim] <;> rfl

/-- **Every chunk does what it does without extensions.** -/
theorem dispatches (h : i.StandsIn cell) : i.Dispatches := by
  intro c position chunk s hc
  unfold dispatch BuiltIn.dispatch
  split
  · rw [h.firstClaiming_eq, pure_bind]
    by_cases hclaim :
        (chunk == .operation .checkLockTimeVerify && c.flags.checkLockTimeVerify) = true
    · rw [if_pos hclaim]
      simp only [Bool.and_eq_true, beq_iff_eq] at hclaim
      obtain ⟨rfl, hlock⟩ := hclaim
      show _ = (Execute.lockTimeOpcode c s).observed i.observe
      unfold Execute.lockTimeOpcode
      rw [if_pos hlock, Run.observed_bind, hc]
      rfl
    · rw [if_neg hclaim]
      rfl
  · cases chunk <;> rfl

/-! ## 2. The hooks -/

/-- Neither extension takes a pair of scripts over. -/
theorem firstTaking_eq (h : i.StandsIn cell) (sig output : Program) (flags : Flags) :
    Session.ofState (firstTaking sig output flags i.extensions) = pure none := by
  funext m
  unfold Session.ofState
  rcases h.extensions with hext | hext <;> rw [hext] <;> rfl

/-- After a signature script, what it left is written down. -/
theorem afterSignatureScript_eq (h : i.StandsIn cell) (sig : Program) (flags : Flags)
    (stack : Stack Bytes) :
    i.afterSignatureScript sig flags stack i.extensions = remember cell sig stack := by
  rcases h.extensions with hext | hext <;> rw [hext]
  · rfl
  · rfl

/-- After an output script, the extension for redemption acts, wherever it stands. -/
theorem afterOutputScript_eq (h : i.StandsIn cell) (output : Program) (flags : Flags)
    (stack : Stack Bytes) :
    i.afterOutputScript output flags i.extensions stack
      = redeemPending cell i.evaluator output flags stack := by
  -- the extension's own answer, passed on through what comes after it
  have hpass : (redeemPending cell i.evaluator output flags stack >>= fun found =>
      if found.1 = .handled then pure (.handled, found.2) else pure (.goOn, found.2))
      = redeemPending cell i.evaluator output flags stack := by
    have hid : (fun found : Flow × Stack Bytes => (if found.1 = .handled
        then pure (.handled, found.2) else pure (.goOn, found.2) : Session μ _)) = pure := by
      funext ⟨flow, left⟩
      cases flow <;> rfl
    rw [hid, bind_pure]
  rcases h.extensions with hext | hext <;> rw [hext]
  · exact hpass
  · exact hpass

/-- **What was written after the signature script is read after the output script**: from a memory
that holds it, a pay-to-script-hash output is redeemed as the rule would, and any other output is
left to the remaining steps. -/
theorem outcome_redeemPending (h : i.StandsIn cell) {sig : Program} {pushed : Stack Bytes} {m : μ}
    (hm : cell.get m = some (sig, pushed)) (output : Program) (flags : Flags)
    (stack : Stack Bytes) :
    (redeemPending cell i.evaluator output flags stack).outcome m =
      if flags.p2sh ∧ output.isPayToScriptHash
      then (BuiltIn.redeem i sig pushed flags).result.map fun left => (Flow.handled, left)
      else .ok (Flow.goOn, stack) := by
  have htake : (takeOut cell).outcome m = .ok (some (sig, pushed)) := by
    rw [← hm]
    rfl
  unfold redeemPending
  rw [Session.outcome_bind, htake]
  show Session.outcome (if (flags.p2sh && output.isPayToScriptHash) = true
    then i.evaluator.redeem sig pushed flags >>= fun left => pure (Flow.handled, left)
    else pure (Flow.goOn, stack)) _ = _
  simp only [Bool.and_eq_true]
  split
  · rw [redeem_eq h.dispatches, Session.outcome_bind, Run.outcome_observed]
    cases (BuiltIn.redeem i sig pushed flags).result <;> rfl
  · rfl

/-! ## 3. One verification -/

/-- What is left to do when the output script has left a true value, from a memory that holds what
the signature script left. -/
theorem outcome_afterTrueOutput (h : i.StandsIn cell) {sig : Program} {pushed : Stack Bytes}
    {m : μ} (hm : cell.get m = some (sig, pushed)) (output : Program) (flags : Flags)
    (stack : Stack Bytes) :
    ((redeemPending cell i.evaluator output flags stack >>= fun found =>
        if flags.p2sh ∧ found.1 = .goOn ∧ output.isPayToScriptHash
          then i.redeem sig pushed flags else pure found.2) : Session μ (Stack Bytes)).outcome m
      = (if flags.p2sh ∧ output.isPayToScriptHash then BuiltIn.redeem i sig pushed flags
          else pure stack : Run (Stack Bytes)).result := by
  rw [Session.outcome_bind, h.outcome_redeemPending hm]
  by_cases hredeem : flags.p2sh = true ∧ output.isPayToScriptHash = true
  · rw [if_pos hredeem, if_pos hredeem]
    cases (BuiltIn.redeem i sig pushed flags).result with
    | error e => rfl
    | ok left =>
      have hskip : ¬ (flags.p2sh = true ∧ Flow.handled = .goOn ∧ output.isPayToScriptHash = true) :=
        fun hr => nomatch hr.2.1
      show Session.outcome (if _ then _ else pure left) _ = _
      rw [if_neg hskip]
      rfl
  · have hskip : ¬ (flags.p2sh = true ∧ Flow.goOn = .goOn ∧ output.isPayToScriptHash = true) :=
      fun hr => hredeem ⟨hr.1, hr.2.2⟩
    rw [if_neg hredeem, if_neg hredeem]
    show Session.outcome (if _ then _ else pure stack) _ = _
    rw [if_neg hskip]
    rfl

theorem outcome_verifyBuiltIn (h : i.StandsIn cell) (sig output : Program) (flags : Flags)
    (m : μ) :
    (i.verifyBuiltIn sig output flags).outcome m
      = (BuiltIn.verifyScripts i sig output flags).result := by
  unfold verifyBuiltIn BuiltIn.verifyScripts
  simp only [h.afterSignatureScript_eq, h.afterOutputScript_eq, eval_eq h.dispatches]
  rw [Session.outcome_bind, Run.outcome_observed, Run.result_bind]
  cases (BuiltIn.eval i [] sig flags).result with
  | error e => rfl
  | ok pushed =>
    generalize Session.memory _ m = m₁
    -- the write: whatever an earlier verification left is gone
    have hwrite : cell.get (cell.put (some (sig, pushed)) m₁) = some (sig, pushed) :=
      cell.get_put _ _
    show Session.outcome ((BuiltIn.eval i pushed output flags).observed i.observe >>= _)
      (cell.put (some (sig, pushed)) m₁) = Run.result (_ >>= _)
    rw [Session.outcome_bind, Run.outcome_observed, Run.result_bind]
    have hread := (Run.view_observed h.observe (BuiltIn.eval i pushed output flags) _).trans hwrite
    cases (BuiltIn.eval i pushed output flags).result with
    | error e => rfl
    | ok stack =>
      show Session.outcome (Session.lift (requireTrue stack) >>= _) _ = Run.result (_ >>= _)
      rw [Session.outcome_bind, Run.result_bind, Session.outcome_lift, Session.memory_lift]
      cases hst : requireTrue stack with
      | error e => rfl
      | ok _ => exact h.outcome_afterTrueOutput hread output flags stack

/-- **A verification ends as it does without extensions**, from whatever memory. -/
theorem outcome_verifyWith (h : i.StandsIn cell) (sig output : Program) (flags : Flags)
    (m : μ) :
    (i.verifyWith sig output flags).outcome m
      = (BuiltIn.verify i sig output flags).result := by
  unfold verifyWith BuiltIn.verify
  rw [h.firstTaking_eq]
  simp only [pure_bind, Session.outcome_bind, Session.outcome_lift, Session.memory_lift,
    Run.result_bind, Run.result_ofExcept, h.outcome_verifyBuiltIn]

end Interpreter.StandsIn

/-! ## 4. Histories -/

/-- How the verifications of a history end, made one after the other on one interpreter. Each starts
from the memory that the one before it left, also where that one failed. -/
def Interpreter.history (i : Interpreter μ) :
    List (Program × Program) → μ → List (Except Failure Unit)
  | [], _ => []
  | (sig, output) :: rest, m =>
    (i.verify sig output).outcome m :: i.history rest ((i.verify sig output).memory m)

theorem Interpreter.StandsIn.history_eq_map {i : Interpreter μ}
    {cell : Cell μ PayToScriptHash.Pending} (h : i.StandsIn cell)
    (pairs : List (Program × Program)) (m : μ) :
    i.history pairs m
      = pairs.map fun pair => (BuiltIn.verify i pair.1 pair.2 i.flags).result := by
  induction pairs generalizing m with
  | nil => rfl
  | cons pair rest ih =>
    show (i.verifyWith pair.1 pair.2 i.flags).outcome m :: i.history rest _ = _
    rw [h.outcome_verifyWith, ih, List.map_cons]

/-- The rules of the one set without those of the other. -/
def Flags.sdiff (f g : Flags) : Flags where
  p2sh := f.p2sh && !g.p2sh
  strictEnc := f.strictEnc && !g.strictEnc
  derSig := f.derSig && !g.derSig
  lowS := f.lowS && !g.lowS
  nullDummy := f.nullDummy && !g.nullDummy
  sigPushOnly := f.sigPushOnly && !g.sigPushOnly
  minimalData := f.minimalData && !g.minimalData
  discourageUpgradableNops := f.discourageUpgradableNops && !g.discourageUpgradableNops
  cleanStack := f.cleanStack && !g.cleanStack
  checkLockTimeVerify := f.checkLockTimeVerify && !g.checkLockTimeVerify

instance : SDiff Flags := ⟨Flags.sdiff⟩

/-- Rules that are taken out and put back. -/
theorem Flags.sdiff_union_of_subset {f g : Flags} (h : g ⊆ f) : f \ g ∪ g = f := by
  have hswitch : ∀ {a b : Bool}, (b || a) = a → (a && !b || b) = a := by decide
  replace h : g.union f = f := h
  show (f.sdiff g).union g = f
  cases f
  cases g
  simp only [Flags.union, Flags.sdiff, Flags.mk.injEq] at h ⊢
  obtain ⟨h1, h2, h3, h4, h5, h6, h7, h8, h9, h10⟩ := h
  exact ⟨hswitch h1, hswitch h2, hswitch h3, hswitch h4, hswitch h5, hswitch h6, hswitch h7,
    hswitch h8, hswitch h9, hswitch h10⟩

namespace StandIn

/-- The rules that the extensions stand in for. -/
def rules : Flags := { p2sh := true, checkLockTimeVerify := true }

/-- What the extension for redemption remembers, beside all else. -/
abbrev Memory (ν : Type) := PayToScriptHash.Pending × ν

/-- The place of the extension for redemption. -/
def cell : Cell (Memory ν) PayToScriptHash.Pending :=
  ⟨Prod.fst, fun a m => (a, m.2), fun _ _ => rfl⟩

/-- An observer, beside what the extension for redemption remembers. -/
def beside (observe : Query → ν → ν) (q : Query) (m : Memory ν) : Memory ν := (m.1, observe q m.2)

/-- The interpreter with the rules. -/
def builtIn (flags : Flags) (checker : Checker) (limits : Limits) (hashes : Hashes)
    (reader : Ecdsa.Reader) (observe : Query → ν → ν) : Interpreter ν :=
  { baseFlags := flags, checker, limits, hashes, reader, observe }

/-- The interpreter with the extensions instead, in either order. -/
def extended (flags : Flags) (checker : Checker) (limits : Limits) (hashes : Hashes)
    (reader : Ecdsa.Reader) (observe : Query → ν → ν) (locksFirst : Bool) :
    Interpreter (Memory ν) :=
  let redemption := PayToScriptHash.extension cell
  let locks := LockTime.extension checker (beside observe)
  { baseFlags := flags \ rules, checker, limits, hashes, reader
    extensions := if locksFirst then [locks, redemption] else [redemption, locks]
    observe := beside observe }

/-- **The extensions equal the rules that they stand in for**, over whole histories: whatever the
memory at the start, and wherever earlier verifications failed, each verification ends as on a
fresh interpreter with the rules, with the same failure and the same detail. -/
theorem history_eq {flags : Flags} (hrules : rules ⊆ flags) (checker : Checker) (limits : Limits)
    (hashes : Hashes) (reader : Ecdsa.Reader) (observe : Query → ν → ν) (locksFirst : Bool)
    (pairs : List (Program × Program)) (m : Memory ν) (fresh : ν) :
    (extended flags checker limits hashes reader observe locksFirst).history pairs m
      = pairs.map fun pair =>
          ((builtIn flags checker limits hashes reader observe).verify pair.1 pair.2).outcome
            fresh := by
  have hstands :
      (extended flags checker limits hashes reader observe locksFirst).StandsIn cell := by
    refine ⟨?_, fun _ _ => rfl⟩
    cases locksFirst
    · exact .inl rfl
    · exact .inr rfl
  have hflags : (extended flags checker limits hashes reader observe locksFirst).flags = flags :=
    hstands.flags_eq.trans (Flags.sdiff_union_of_subset hrules)
  rw [hstands.history_eq_map, hflags]
  refine List.map_congr_left fun pair _ => ?_
  exact (Interpreter.outcome_verify (i := builtIn flags checker limits hashes reader observe) rfl
    flags pair.1 pair.2 fresh).symm

/-- Digests that only cut and pad, for a spend that can be followed by hand. -/
def paddingHashes : Hashes where
  sha1 message := (message ++ List.replicate 20 0).take 20
  sha256 message := (message ++ List.replicate 32 0).take 32
  ripemd160 message := (message ++ List.replicate 20 0).take 20
  length_sha1 _ := by simp
  length_sha256 _ := by simp
  length_ripemd160 _ := by simp

/-- An output that commits to a script of the single chunk one. -/
def hashedOutput : Program := Template.payToScriptHash paddingHashes [.push (.small (.num 1))]

/-- A signature script that pushes a script of one byte. -/
def pushByte (b : UInt8) : Program := [.push (.data ⟨.direct, [b]⟩)]

/-- The rules of the spends. -/
def spendRules : Flags := { rules with cleanStack := true }

/-- The interpreter of the spends. -/
def spendInterpreter : Interpreter Unit :=
  builtIn spendRules .rejecting {} paddingHashes LaxDer.signature? fun _ n => n

/-- The script of one byte is read, run, and found to be true. -/
theorem redeem_pushByte :
    BuiltIn.redeem spendInterpreter (pushByte 0x51) [[0x51]] spendRules = pure [[1]] := by
  have hparse : Program.parse [0x51] = .ok [.push (.small (.num 1))] :=
    Program.parse_encode (p := [.push (.small (.num 1))]) (by decide)
  have hread : Evaluator.redeemScript (pushByte 0x51) [[0x51]]
      = .ok ([.push (.small (.num 1))], []) := by
    unfold Evaluator.redeemScript
    dsimp only
    rw [hparse]
    rfl
  unfold BuiltIn.redeem
  rw [hread]
  rfl

/-- The output script finds the digest to be right, so the pushed script is run. -/
theorem verify_pushByte :
    (BuiltIn.verify spendInterpreter (pushByte 0x51) hashedOutput spendRules).result = .ok () := by
  have hsig : BuiltIn.eval spendInterpreter [] (pushByte 0x51) spendRules = pure [[0x51]] := rfl
  have houtput : BuiltIn.eval spendInterpreter [[0x51]] hashedOutput spendRules = pure [[1]] := rfl
  have hasked : spendRules.p2sh = true ∧ hashedOutput.isPayToScriptHash = true := by decide
  unfold BuiltIn.verify BuiltIn.verifyScripts
  rw [hsig, pure_bind, houtput, pure_bind, if_pos hasked, redeem_pushByte]
  rfl

/-- Two spends of one output. The first pushes the wrong script and fails when that was already
written down; the second pushes the right one. -/
theorem history_eq_afterFailure :
    rules ⊆ spendRules ∧
    (extended spendRules .rejecting {} paddingHashes LaxDer.signature? (fun _ n => n) false).history
        [(pushByte 0x52, hashedOutput), (pushByte 0x51, hashedOutput)] (none, ())
      = [.error (.plain .evalFalse), .ok ()] := by
  have hrules : rules ⊆ spendRules := by decide
  refine ⟨hrules, ?_⟩
  rw [history_eq hrules .rejecting {} paddingHashes LaxDer.signature? (fun _ n => n) false _
    (none, ()) ()]
  have hfirst : (spendInterpreter.verify (pushByte 0x52) hashedOutput).outcome ()
      = .error (.plain .evalFalse) := rfl
  have hsecond : (spendInterpreter.verify (pushByte 0x51) hashedOutput).outcome () = .ok () :=
    (Interpreter.outcome_verify (i := spendInterpreter) rfl spendRules (pushByte 0x51)
      hashedOutput ()).trans verify_pushByte
  show [(spendInterpreter.verify (pushByte 0x52) hashedOutput).outcome (),
    (spendInterpreter.verify (pushByte 0x51) hashedOutput).outcome ()] = _
  rw [hfirst, hsecond]

end StandIn

end SpendScript
