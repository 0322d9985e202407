import SpendScript.Proofs.Multisig
/-!
# What a chunk asks

Only three kinds of opcode ask the checker anything: the lock time opcode about a lock time, and
the two checks of signatures about signatures. This file says what each question holds and how many
there are, so that what is proved of the questions of a run need not look at opcodes again.

What this file fixes:

* `Query.isSignature` -- whether a question is about a signature.
* `Execute.signaturesOf` -- the signatures that a chunk takes off the stack.
* `Execute.mem_asked_chunk` -- a question about a signature is about one of these, comes after the
  rules on encodings, and shows the checker the code without all of them.
* `Execute.countP_asked_chunk` -- how many questions about signatures a chunk asks at most.
-/

namespace SpendScript

/-- Whether a question is about a signature. -/
def Query.isSignature : Query → Bool
  | .signature .. => true
  | .lockTime .. => false

namespace Execute

variable {c : Context} {s : State} {q : Query}

/-! ## 1. One pair -/

/-- The question about a signature and a key, with its answer. -/
def pairQuery (c : Context) (sig key code : Bytes) : Query :=
  .signature sig key code (c.checker.signature sig key code)

/-- Only a pair that passes the rules on encodings is asked about. -/
theorem eq_of_mem_asked_askVetted {sig key code : Bytes}
    (h : q ∈ (askVetted c sig key code).asked) :
    vet c.reader c.flags sig key = .ok () ∧ q = pairQuery c sig key code := by
  obtain ⟨_, hvet, h⟩ := Run.mem_asked_ofExcept_bind h
  exact ⟨hvet, List.mem_singleton.mp h⟩

theorem countP_asked_askVetted (sig key code : Bytes) (test : Query → Bool) :
    (askVetted c sig key code).asked.countP test ≤ 1 :=
  Run.countP_asked_ofExcept_bind fun _ _ => List.countP_le_length

/-- The signature that is due is on the stack. -/
theorem eq_of_mem_asked_askPair {stack : Stack Bytes} {code : Bytes} {p : Pairing}
    (h : q ∈ (askPair c stack code p).asked) :
    ∃ sig key, stack[p.sigAt - 1]? = some sig ∧ vet c.reader c.flags sig key = .ok () ∧
      q = pairQuery c sig key code := by
  obtain ⟨sig, hsig, h⟩ := Run.mem_asked_ofExcept_bind h
  obtain ⟨key, _, h⟩ := Run.mem_asked_ofExcept_bind h
  exact ⟨sig, key, elementAt_ok hsig, eq_of_mem_asked_askVetted h⟩

theorem countP_asked_askPair (stack : Stack Bytes) (code : Bytes) (test : Query → Bool)
    (p : Pairing) : (askPair c stack code p).asked.countP test ≤ 1 :=
  Run.countP_asked_ofExcept_bind fun _ _ =>
    Run.countP_asked_ofExcept_bind fun _ _ => countP_asked_askVetted _ _ _ test

/-! ## 2. Checks of signatures -/

/-- A check of one signature asks what its pair asks. -/
theorem asked_checkSig_cons {verifying : Option FailureKind} {key sig : Bytes}
    {below : Stack Bytes} (hstack : s.stack = key :: sig :: below) :
    (checkSig c verifying s).asked = (askVetted c sig key (scriptCode c s [sig])).asked := by
  unfold checkSig
  rw [hstack]
  exact Run.asked_bind_of_quiet fun _ => Run.asked_bind_of_quiet fun _ => rfl

theorem mem_asked_checkSig {verifying : Option FailureKind}
    (h : q ∈ (checkSig c verifying s).asked) :
    ∃ sig key, s.stack[1]? = some sig ∧ vet c.reader c.flags sig key = .ok () ∧
      q = pairQuery c sig key (scriptCode c s [sig]) := by
  rcases hstack : s.stack with _ | ⟨key, _ | ⟨sig, below⟩⟩
  case cons.cons =>
    rw [asked_checkSig_cons hstack] at h
    exact ⟨sig, key, rfl, eq_of_mem_asked_askVetted h⟩
  all_goals
    unfold checkSig at h
    rw [hstack] at h
    cases h

theorem countP_asked_checkSig (verifying : Option FailureKind) (test : Query → Bool) :
    (checkSig c verifying s).asked.countP test ≤ 1 := by
  rcases hstack : s.stack with _ | ⟨key, _ | ⟨sig, below⟩⟩
  case cons.cons =>
    rw [asked_checkSig_cons hstack]
    exact countP_asked_askVetted _ _ _ test
  all_goals
    unfold checkSig
    rw [hstack]
    exact Nat.zero_le 1

/-- The signature of a pair that is due is one of those on the stack. -/
theorem mem_multisigSignatures {keyCount : Nat} {l : MultisigLayout} {p : Pairing} {sig : Bytes}
    (hkeys : operandCount c s.stack[0]? = keyCount)
    (hlayout : readLayout c s.stack keyCount = .ok l) (hlow : l.firstSig ≤ p.sigAt)
    (hhigh : p.sigAt < l.firstSig + l.sigCount) (hsig : s.stack[p.sigAt - 1]? = some sig) :
    sig ∈ multisigSignatures c s.stack := by
  rw [← signatures_eq hkeys hlayout]
  obtain ⟨sigCount, _, _, rfl, _⟩ := readLayout_ok hlayout
  dsimp only at hlow hhigh
  refine List.mem_of_getElem? (i := p.sigAt - (keyCount + 3)) ?_
  have hindex : keyCount + 3 - 1 + (p.sigAt - (keyCount + 3)) = p.sigAt - 1 := by omega
  show ((s.stack.drop (keyCount + 3 - 1)).take sigCount)[p.sigAt - (keyCount + 3)]? = some sig
  rw [List.getElem?_take_of_lt (by omega), List.getElem?_drop, hindex, hsig]

/-- A check of several signatures asks what its pairing asks, once it has found its operands. -/
theorem asked_checkMultisig (verifying : Option FailureKind) :
    (checkMultisig c verifying s).asked = [] ∨
    ∃ l, readLayout c s.stack (operandCount c s.stack[0]?) = .ok l ∧
      operandCount c s.stack[0]? ≤ c.limits.maxPubKeyCount.toNat ∧
      (checkMultisig c verifying s).asked =
        (pairUp (askPair c s.stack (scriptCode c s (multisigSignatures c s.stack)))
          (operandCount c s.stack[0]?) ⟨l.firstSig, l.firstKey, l.sigCount⟩).asked := by
  unfold checkMultisig
  cases hread : readKeyCount c s with
  | error e => exact .inl rfl
  | ok found =>
    obtain ⟨keyCount, s'⟩ := found
    obtain ⟨rfl, hlimit, _, rfl⟩ := readKeyCount_ok hread
    cases hlayout : readLayout c s.stack (operandCount c s.stack[0]?) with
    | error e =>
      left
      show (Run.ofExcept (readLayout c s.stack _) >>= _).asked = []
      rw [hlayout]
      rfl
    | ok l =>
      refine .inr ⟨l, rfl, hlimit, ?_⟩
      have hkeys : l.keyCount = operandCount c s.stack[0]? := by
        obtain ⟨_, _, _, rfl, _⟩ := readLayout_ok hlayout
        rfl
      show (Run.ofExcept (readLayout c s.stack _) >>= _).asked = _
      rw [hlayout, ← hkeys, ← signatures_eq rfl hlayout]
      show (pairUp _ l.keyCount _ >>= _).asked = _
      exact Run.asked_bind_of_quiet fun _ =>
        Run.asked_bind_of_quiet fun _ => Run.asked_bind_of_quiet fun _ => rfl

theorem mem_asked_checkMultisig {verifying : Option FailureKind}
    (h : q ∈ (checkMultisig c verifying s).asked) :
    ∃ sig key, sig ∈ multisigSignatures c s.stack ∧ vet c.reader c.flags sig key = .ok () ∧
      q = pairQuery c sig key (scriptCode c s (multisigSignatures c s.stack)) := by
  rcases asked_checkMultisig (c := c) (s := s) verifying with hnone | ⟨l, hlayout, _, hasked⟩
  · rw [hnone] at h
    cases h
  · rw [hasked] at h
    obtain ⟨tried, h, hlow, hhigh⟩ := mem_asked_pairUp h
    obtain ⟨sig, key, hsig, hvet, hq⟩ := eq_of_mem_asked_askPair h
    exact ⟨sig, key, mem_multisigSignatures rfl hlayout hlow hhigh hsig, hvet, hq⟩

/-- One question for each key at most, and there are no more keys than the limit. -/
theorem countP_asked_checkMultisig (verifying : Option FailureKind) (test : Query → Bool) :
    (checkMultisig c verifying s).asked.countP test
      ≤ min (operandCount c s.stack[0]?) c.limits.maxPubKeyCount.toNat := by
  rcases asked_checkMultisig (c := c) (s := s) verifying with hnone | ⟨l, _, hlimit, hasked⟩
  · rw [hnone]
    exact Nat.zero_le _
  · rw [hasked, Nat.min_eq_left hlimit]
    exact countP_asked_pairUp (countP_asked_askPair _ _ test) _ _

/-! ## 3. Chunks -/

/-- The signatures that a chunk takes off the stack. -/
def signaturesOf (c : Context) (stack : Stack Bytes) : Chunk → List Bytes
  | .operation .checkSig | .operation .checkSigVerify => stack[1]?.toList
  | .operation .checkMultisig | .operation .checkMultisigVerify => multisigSignatures c stack
  | _ => []

/-- The most questions about signatures that a chunk can ask. -/
def questionLimit (c : Context) (stack : Stack Bytes) : Chunk → Nat
  | .operation .checkSig | .operation .checkSigVerify => 1
  | .operation .checkMultisig | .operation .checkMultisigVerify =>
    min (operandCount c stack[0]?) c.limits.maxPubKeyCount.toNat
  | _ => 0

/-- The lock time opcode asks about no signature. -/
theorem isSignature_of_mem_asked_lockTimeOpcode (h : q ∈ (lockTimeOpcode c s).asked) :
    q.isSignature = false := by
  unfold lockTimeOpcode at h
  split at h
  · rcases Run.mem_asked_bind h with h | ⟨_, _, h⟩
    · unfold checkLockTime at h
      split at h
      · cases h
      split at h
      · cases h
      split at h
      · cases h
      rcases Run.mem_asked_bind h with h | ⟨answer, _, h⟩
      · rw [List.mem_singleton.mp h]
        rfl
      · cases answer <;> cases h
    · cases h
  · cases h

/-- **A question about a signature** is about one that the chunk takes off the stack, which passes
the rules on encodings together with its key, and it shows the code without any of the signatures
that the chunk takes. -/
theorem mem_asked_chunk {position : Nat} {chunk : Chunk}
    (h : q ∈ (Execute.chunk c position s chunk).asked) (hq : q.isSignature) :
    ∃ sig key, sig ∈ signaturesOf c s.stack chunk ∧ vet c.reader c.flags sig key = .ok () ∧
      q = pairQuery c sig key (scriptCode c s (signaturesOf c s.stack chunk)) := by
  have hone : ∀ {verifying}, q ∈ (checkSig c verifying s).asked →
      ∃ sig key, sig ∈ s.stack[1]?.toList ∧ vet c.reader c.flags sig key = .ok () ∧
        q = pairQuery c sig key (scriptCode c s s.stack[1]?.toList) := by
    intro verifying h
    obtain ⟨sig, key, hsig, hvet, hpair⟩ := mem_asked_checkSig h
    rw [hsig]
    exact ⟨sig, key, List.mem_singleton_self sig, hvet, hpair⟩
  cases chunk with
  | push p => cases h
  | control op => cases h
  | disabled d => cases h
  | bad b => cases h
  | operation op =>
    cases op
    case checkSig | checkSigVerify => exact hone h
    case checkMultisig | checkMultisigVerify => exact mem_asked_checkMultisig h
    case checkLockTimeVerify =>
      rw [isSignature_of_mem_asked_lockTimeOpcode h] at hq
      cases hq
    all_goals cases h

/-- **How many questions about signatures a chunk asks.** -/
theorem countP_asked_chunk (position : Nat) (chunk : Chunk) :
    (Execute.chunk c position s chunk).asked.countP Query.isSignature
      ≤ questionLimit c s.stack chunk := by
  cases chunk with
  | push p => exact Nat.le_refl 0
  | control op => exact Nat.le_refl 0
  | disabled d => exact Nat.le_refl 0
  | bad b => exact Nat.le_refl 0
  | operation op =>
    cases op
    case checkSig | checkSigVerify => exact countP_asked_checkSig _ _
    case checkMultisig | checkMultisigVerify => exact countP_asked_checkMultisig _ _
    case checkLockTimeVerify =>
      refine Nat.le_of_eq (List.countP_eq_zero.mpr fun q h => ?_)
      rw [isSignature_of_mem_asked_lockTimeOpcode h]
      exact Bool.false_ne_true
    all_goals exact Nat.le_refl 0

end Execute

end SpendScript
