import SpendScript.Proofs.Pieces
import SpendScript.Proofs.Redemption
import SpendScript.Proofs.Vetting
/-!
# Funds behind a hash and a lock time

A hash time lock has two ways out. Each of them ends in a signature check, and each of them has a
condition in front of it that nobody gets around: the lock time has come, or the preimage is shown.

What this file fixes:

* `Template.reclaim`, `Template.claim` -- the two ways, given the pushes of the keys.
* `Template.byteLength_hashTimeLock_le` -- the script is never too long.
* `BuiltIn.leaves_reclaim`, `BuiltIn.leaves_claim` -- what each way leaves.
* `Interpreter.hashTimeLock_released` -- what the whole script leaves on any stack, for either value
  of the element that chooses the way.
-/

namespace SpendScript

variable {μ : Type}

/-! ## 1. The script -/

theorem Push.shortest_element? {bytes : Bytes} {p : Push} (h : element? bytes = some p) :
    p.Shortest bytes := by
  unfold element? at h
  split at h
  · exact of_ofBytes? h
  · cases h

theorem Push.Shortest.skippable {p : Push} {bytes : Bytes} {limits : Limits} (hp : p.Shortest bytes)
    (hlength : bytes.length ≤ limits.maxPushSize) : (Chunk.push p).Skippable limits :=
  ⟨hp.wellFormed, by rw [hp.value]; exact hlength⟩

namespace Template

/-- `sig -- b` for the sender after a lock time -/
def reclaim (lockTime : UInt32) (key : Push) : Program :=
  checkLockTime lockTime ++ [.push key, .operation .checkSig]

/-- `sig preimage -- b` for the recipient -/
def claim (hash : Bytes) (key : Push) : Program :=
  .operation .hash160 :: equals (pushHash hash) true ++ [.push key, .operation .checkSig]

/-- **There is a script for any two keys** that are no longer than an element may be: the two ways
behind a choice. -/
theorem hashTimeLock_eq_ok (lockTime : UInt32) (hash : Bytes) {sender recipient : Bytes}
    (hsender : sender.length ≤ Push.maxElementSize)
    (hrecipient : recipient.length ≤ Push.maxElementSize) :
    ∃ p q : Push, p.Shortest sender ∧ q.Shortest recipient ∧
      hashTimeLock lockTime sender hash recipient
        = .ok (branch (reclaim lockTime p) (claim hash q)) := by
  obtain ⟨p, hp⟩ := Push.exists_element? hsender
  obtain ⟨q, hq⟩ := Push.exists_element? hrecipient
  refine ⟨p, q, Push.shortest_element? hp, Push.shortest_element? hq, ?_⟩
  unfold hashTimeLock checkSig
  rw [hp, hq]
  rfl

variable {lockTime : UInt32} {sender hash recipient : Bytes} {p q : Push}

theorem countP_checkLockTime :
    (checkLockTime lockTime).countP Interpreter.isCounted = 2 := by
  simp [checkLockTime, Interpreter.isCounted_push, Interpreter.isCounted_operation]

theorem countP_equals (p : Push) (verifying : Bool) :
    (equals p verifying).countP Interpreter.isCounted = 1 := by
  simp [equals, Interpreter.isCounted_push, Interpreter.isCounted_operation]

theorem countP_reclaim : (reclaim lockTime p).countP Interpreter.isCounted = 3 := by
  simp [reclaim, checkLockTime, Interpreter.isCounted_push, Interpreter.isCounted_operation]

theorem countP_claim : (claim hash p).countP Interpreter.isCounted = 3 := by
  simp [claim, equals, Interpreter.isCounted_push, Interpreter.isCounted_operation]

theorem countP_hashTimeLock :
    (branch (reclaim lockTime p) (claim hash q)).countP Interpreter.isCounted = 9 := by
  rw [BuiltIn.countP_branch, countP_reclaim, countP_claim]

theorem balanced_reclaim : (reclaim lockTime p).Balanced := rfl

theorem balanced_claim : (claim hash p).Balanced := rfl

theorem skippable_reclaim {limits : Limits} (hp : p.Shortest sender)
    (hsender : sender.length ≤ limits.maxPushSize)
    (hpush : Execute.lockTimeSize ≤ limits.maxPushSize) :
    ∀ chunk ∈ reclaim lockTime p, chunk.Skippable limits := by
  have hnumber := (shortest_pushNumber (BuiltIn.fits_lockTime lockTime)).skippable
    (Nat.le_trans (BuiltIn.length_encode_lockTime lockTime) hpush)
  have hkey := hp.skippable hsender
  have hoperation : ∀ op, (Chunk.operation op).Skippable limits := fun _ => trivial
  simp [reclaim, checkLockTime, hnumber, hkey, hoperation]

theorem skippable_claim {limits : Limits} (hp : p.Shortest recipient)
    (hrecipient : recipient.length ≤ limits.maxPushSize) (hhash : hash.length = 20)
    (hpush : hash.length ≤ limits.maxPushSize) :
    ∀ chunk ∈ claim hash p, chunk.Skippable limits := by
  have hdigest := (Push.shortest_pushHash hhash).skippable hpush
  have hkey := hp.skippable hrecipient
  have hoperation : ∀ op, (Chunk.operation op).Skippable limits := fun _ => trivial
  simp [claim, equals, hdigest, hkey, hoperation]

/-- The script is never too long. -/
theorem byteLength_hashTimeLock_le (hp : p.Shortest sender) (hq : q.Shortest recipient)
    (hsender : sender.length ≤ Push.maxElementSize)
    (hrecipient : recipient.length ≤ Push.maxElementSize) (hhash : hash.length = 20) :
    (branch (reclaim lockTime p) (claim hash q)).byteLength ≤ 10000 := by
  have hnumber := (shortest_pushNumber (BuiltIn.fits_lockTime lockTime)).length_encode_le
  have hlock := BuiltIn.length_encode_lockTime lockTime
  have hdigest := (Push.shortest_pushHash hhash).length_encode_le
  have hkey := hp.length_encode_le
  have hother := hq.length_encode_le
  unfold Push.maxElementSize at hsender hrecipient
  unfold Execute.lockTimeSize at hlock
  show 1 + ((pushNumber lockTime.toNat).encode.length + (1 + (1 + (p.encode.length + (1 + (1 + (1 +
    ((pushHash hash).encode.length + (1 + (q.encode.length + (1 + (1 + 0)))))))))))) ≤ 10000
  omega

end Template

/-! ## 2. The two ways -/

namespace BuiltIn

variable {c : Context} {s : State} {position : Nat} {key sig : Bytes} {below : Stack Bytes}
variable {p : Push} (hp : p.Shortest key) (hlength : key.length ≤ c.limits.maxPushSize)
  (hactive : s.isActive) (hroom : s.depth < c.limits.maxStackSize)
  (hops : s.opCount + 3 ≤ c.limits.maxOpCount)
include hp hlength hactive hroom hops

/-- **The way of the sender**: nothing is asked about the signature before the lock time. -/
theorem leaves_reclaim (lockTime : UInt32) (hrule : c.flags.checkLockTimeVerify)
    (hpush : Execute.lockTimeSize ≤ c.limits.maxPushSize) (hstack : s.stack = sig :: below) :
    Leaves c position (Template.reclaim lockTime p) s
      (Run.askLockTime c.checker lockTime.toNat >>= fun come =>
        if come then (fun answer => ofBool answer :: below) <$>
          Execute.askVetted c sig key (Execute.scriptCode c s [sig])
        else .fail (.plain .unsatisfiedLockTime)) := by
  have hlock := leaves_checkLockTime hactive hroom lockTime hrule hpush (by omega) position
  refine hlock.guarded ?_
  rw [Template.countP_checkLockTime]
  exact leaves_checkSig (s := { s with opCount := s.opCount + 2 }) hactive hroom hp hlength hops
    hstack _

/-- **The way of the recipient**: nothing is asked about the signature before the preimage is
shown. -/
theorem leaves_claim {preimage hash : Bytes} (hhash : hash.length = 20)
    (hpush : hash.length ≤ c.limits.maxPushSize) (hstack : s.stack = preimage :: sig :: below) :
    Leaves c position (Template.claim hash p) s
      (if c.hashes.hash160 preimage == hash then (fun answer => ofBool answer :: below) <$>
          Execute.askVetted c sig key (Execute.scriptCode c s [sig])
        else .fail (.plain .equalVerify)) := by
  let digest := c.hashes.hash160 preimage
  have hdepth : (digest :: sig :: below).length + s.alt.length < c.limits.maxStackSize := by
    unfold State.depth at hroom
    rw [hstack] at hroom
    exact hroom
  have hhashed := leaves_hash160 hactive (Nat.le_of_lt hroom) (by omega) hstack position
  have hequal := leaves_equals_verify (s := { s with
    stack := digest :: sig :: below
    opCount := s.opCount + 1 }) hactive hdepth (Push.shortest_pushHash hhash) hpush
    (by dsimp only; omega) rfl (position + 1)
  have hshorter : (sig :: below).length + s.alt.length < c.limits.maxStackSize := by
    rw [List.length_cons] at hdepth
    omega
  have hcheck := leaves_checkSig (s := { s with
    stack := sig :: below
    opCount := s.opCount + 2 }) hactive hshorter hp hlength hops rfl (position + 3)
  have hrest : Leaves c (position + 1)
      (Template.equals (Template.pushHash hash) true ++ [.push p, .operation .checkSig])
      { s with stack := digest :: sig :: below, opCount := s.opCount + 1 }
      (if digest == hash then (fun answer => ofBool answer :: below) <$>
          Execute.askVetted c sig key (Execute.scriptCode c s [sig])
        else .fail (.plain .equalVerify)) := by
    refine Leaves.guarded (x := pure (digest == hash)) hequal ?_
    rw [Template.countP_equals]
    exact hcheck
  exact hhashed.append (f := fun _ => _) fun stack hresult => by
    cases hresult
    exact hrest

end BuiltIn

/-! ## 3. The interpreter -/

/-- Without rules on encodings the checker is asked about any signature and any key. -/
theorem Execute.result_askVetted {c : Context}
    (hrules : ¬ (c.flags.derSig ∨ c.flags.lowS ∨ c.flags.strictEnc)) (sig key code : Bytes) :
    (askVetted c sig key code).result = .ok (c.checker.signature sig key code) := by
  have hvet : vet c.reader c.flags sig key = .ok () := vet_eq_ok_iff.mpr {
    der := fun h => absurd h hrules
    lowS := fun h => absurd (.inr (.inl h)) hrules
    hashType := fun h => absurd (.inr (.inr h)) hrules
    key := fun h => absurd (.inr (.inr h)) hrules }
  unfold askVetted
  rw [hvet]
  rfl

section HashTimeLock

variable {i : Interpreter μ} {flags : Flags} {lockTime : UInt32} {sender hash recipient : Bytes}
  {p q : Push} {sig t : Bytes} {below : Stack Bytes}
variable (hlimits : i.limits = {}) (hp : p.Shortest sender) (hq : q.Shortest recipient)
  (hsender : sender.length ≤ Push.maxElementSize)
  (hrecipient : recipient.length ≤ Push.maxElementSize) (hhash : hash.length = 20)
include hlimits hp hq hsender hrecipient hhash

/-- **The true element** chooses the way of the sender. -/
theorem BuiltIn.eval_hashTimeLock_onTrue (hrule : flags.checkLockTimeVerify) (ht : truthy t = true)
    (hroom : below.length + 2 ≤ 1000) :
    let script := Template.branch (Template.reclaim lockTime p) (Template.claim hash q)
    eval i (t :: sig :: below) script flags =
      Run.askLockTime i.checker lockTime.toNat >>= fun come =>
        if come then (fun answer => ofBool answer :: below) <$>
          Execute.askVetted (i.context script flags) sig sender (script.findAndDelete sig).encode
        else .fail (.plain .unsatisfiedLockTime) := by
  intro script
  let c := i.context script flags
  have hc : c.limits = {} := hlimits
  have hsize : script.byteLength ≤ i.limits.maxScriptSize := by
    rw [hlimits]
    exact Template.byteLength_hashTimeLock_le hp hq hsender hrecipient hhash
  have hcount : script.countP Interpreter.isCounted = 9 := Template.countP_hashTimeLock
  have hway : Leaves c 1 (Template.reclaim lockTime p)
      { stack := sig :: below, opCount := 1, conditions := [true] }
      (Run.askLockTime i.checker lockTime.toNat >>= fun come =>
        if come then (fun answer => ofBool answer :: below) <$>
          Execute.askVetted c sig sender (script.findAndDelete sig).encode
        else .fail (.plain .unsatisfiedLockTime)) := by
    refine leaves_reclaim hp ?_ rfl ?_ ?_ lockTime hrule ?_ rfl
    · rw [hc]
      exact hsender
    · rw [hc]
      exact show below.length + 1 + 0 < 1000 by omega
    · rw [hc]
      exact show 1 + 3 ≤ 201 by decide
    · rw [hc]
      exact show 5 ≤ 520 by decide
  refine eval_of_leaves hsize
    (leaves_branch_onTrue rfl rfl ?_ ?_ ht ?_ Template.balanced_claim hway)
  · rw [hcount, hc]
    exact show 0 + 9 ≤ 201 by decide
  · rw [hc]
    exact show below.length + 1 + 1 + 0 ≤ 1000 by omega
  · rw [hc]
    exact Template.skippable_claim hq hrecipient hhash (by rw [hhash]; decide)

/-- **An element that is not true** chooses the way of the recipient. -/
theorem BuiltIn.eval_hashTimeLock_onFalse {preimage : Bytes} (ht : truthy t = false)
    (hroom : below.length + 3 ≤ 1000) :
    let script := Template.branch (Template.reclaim lockTime p) (Template.claim hash q)
    eval i (t :: preimage :: sig :: below) script flags =
      if i.hashes.hash160 preimage == hash then (fun answer => ofBool answer :: below) <$>
          Execute.askVetted (i.context script flags) sig recipient (script.findAndDelete sig).encode
        else .fail (.plain .equalVerify) := by
  intro script
  let c := i.context script flags
  have hc : c.limits = {} := hlimits
  have hsize : script.byteLength ≤ i.limits.maxScriptSize := by
    rw [hlimits]
    exact Template.byteLength_hashTimeLock_le hp hq hsender hrecipient hhash
  have hcount : script.countP Interpreter.isCounted = 9 := Template.countP_hashTimeLock
  have hway : Leaves c 7 (Template.claim hash q)
      { stack := preimage :: sig :: below, opCount := 5, conditions := [true] }
      (if i.hashes.hash160 preimage == hash then (fun answer => ofBool answer :: below) <$>
          Execute.askVetted c sig recipient (script.findAndDelete sig).encode
        else .fail (.plain .equalVerify)) := by
    refine leaves_claim hq ?_ rfl ?_ ?_ hhash ?_ rfl
    · rw [hc]
      exact hrecipient
    · rw [hc]
      exact show below.length + 1 + 1 + 0 < 1000 by omega
    · rw [hc]
      exact show 5 + 3 ≤ 201 by decide
    · rw [hc, hhash]
      decide
  refine eval_of_leaves hsize
    (leaves_branch_onFalse rfl rfl ?_ ?_ ht ?_ Template.balanced_reclaim ?_)
  · rw [hcount, hc]
    exact show 0 + 9 ≤ 201 by decide
  · rw [hc]
    exact show below.length + 1 + 1 + 1 + 0 ≤ 1000 by omega
  · rw [hc]
    exact Template.skippable_reclaim hp hsender (by decide)
  · rw [Template.countP_reclaim]
    exact hway

end HashTimeLock

/-- **A hash time lock releases funds on its two conditions alone.** Without extensions, under the
default limits and under any rules that put the lock time opcode in force and ask nothing of
encodings: there is a script for any lock time, any hash and any two keys that fit an element. On a
signature under a true element it leaves whether the signature fits the key of the sender, if the
lock time has come, and fails before. On a signature and a preimage under an element that is not
true it leaves whether the signature fits the key of the recipient, if the preimage is one of the
hash, and fails for any other. A signature covers the script without its own pushes, and what lies
below stays as it was. -/
theorem Interpreter.hashTimeLock_released (i : Interpreter μ) (hext : i.extensions = [])
    (hlimits : i.limits = {}) (flags : Flags) (hrule : flags.checkLockTimeVerify)
    (hencodings : ¬ (flags.derSig ∨ flags.lowS ∨ flags.strictEnc)) (lockTime : UInt32)
    (sender hash recipient : Bytes) (hsender : sender.length ≤ Push.maxElementSize)
    (hrecipient : recipient.length ≤ Push.maxElementSize) (hhash : hash.length = 20) (m : μ) :
    ∃ script, Template.hashTimeLock lockTime sender hash recipient = .ok script ∧
      (∀ (rest : List Bytes) (sig t : Bytes), truthy t = true →
        (rest ++ [sig, t]).length ≤ 1000 →
        (i.eval (.ofBottomFirst (rest ++ [sig, t])) script flags).outcome m =
          if i.checker.lockTime lockTime.toNat then .ok (.ofBottomFirst (rest ++
            [ofBool (i.checker.signature sig sender (script.findAndDelete sig).encode)]))
          else .error (.plain .unsatisfiedLockTime)) ∧
      (∀ (rest : List Bytes) (sig preimage f : Bytes), truthy f = false →
        (rest ++ [sig, preimage, f]).length ≤ 1000 →
        (i.eval (.ofBottomFirst (rest ++ [sig, preimage, f])) script flags).outcome m =
          if i.hashes.hash160 preimage = hash then .ok (.ofBottomFirst (rest ++
            [ofBool (i.checker.signature sig recipient (script.findAndDelete sig).encode)]))
          else .error (.plain .equalVerify)) := by
  obtain ⟨p, q, hp, hq, hscript⟩ := Template.hashTimeLock_eq_ok lockTime hash hsender hrecipient
  let script := Template.branch (Template.reclaim lockTime p) (Template.claim hash q)
  refine ⟨_, hscript, fun rest sig t ht hroom => ?_, fun rest sig preimage f hf hroom => ?_⟩
  · have hbelow : (Stack.ofBottomFirst rest).length + 2 ≤ 1000 := by
      rw [List.length_append] at hroom
      rw [Stack.length_ofBottomFirst]
      exact hroom
    have heval : BuiltIn.eval i (t :: sig :: Stack.ofBottomFirst rest) script flags = _ :=
      BuiltIn.eval_hashTimeLock_onTrue hlimits hp hq hsender hrecipient hhash hrule ht hbelow
    rw [Stack.ofBottomFirst_append, Stack.ofBottomFirst_append]
    show (i.eval (t :: sig :: Stack.ofBottomFirst rest) script flags).outcome m = _
    rw [outcome_eval hext, heval, Run.result_bind]
    show (if i.checker.lockTime lockTime.toNat then _ else _ : Run (Stack Bytes)).result = _
    split
    · rw [← bind_pure_comp, Run.result_bind, Execute.result_askVetted hencodings]
      rfl
    · rfl
  · have hbelow : (Stack.ofBottomFirst rest).length + 3 ≤ 1000 := by
      rw [List.length_append] at hroom
      rw [Stack.length_ofBottomFirst]
      exact hroom
    have heval : BuiltIn.eval i (f :: preimage :: sig :: Stack.ofBottomFirst rest) script flags
        = _ :=
      BuiltIn.eval_hashTimeLock_onFalse hlimits hp hq hsender hrecipient hhash hf hbelow
    rw [Stack.ofBottomFirst_append, Stack.ofBottomFirst_append]
    show (i.eval (f :: preimage :: sig :: Stack.ofBottomFirst rest) script flags).outcome m = _
    rw [outcome_eval hext, heval]
    by_cases hpreimage : i.hashes.hash160 preimage = hash
    · rw [if_pos (beq_iff_eq.mpr hpreimage), if_pos hpreimage, ← bind_pure_comp, Run.result_bind,
        Execute.result_askVetted hencodings]
      rfl
    · rw [if_neg (fun h => hpreimage (beq_iff_eq.mp h)), if_neg hpreimage]
      rfl

namespace HashTimeLock

/-- One signature fits one key, of a single byte, and lock times have come up to 500. -/
def interpreter : Interpreter Unit :=
  { baseFlags := .empty, checker := .table [(some [5], some [1])] 500 }

/-- The lock time opcode is in force. -/
def rules : Flags := { checkLockTimeVerify := true, minimalData := true }

/-- What is asked for before the recipient can sign. -/
def hash : Bytes := interpreter.hashes.hash160 [7]

end HashTimeLock

open HashTimeLock in
/-- The key of one byte is pushed by an opcode of its own. The sender's signature fits, after the
lock time; the recipient shows the preimage, and the signature does not fit. -/
theorem Interpreter.hashTimeLock_released_oneByteKey :
    interpreter.extensions = [] ∧ interpreter.limits = {} ∧ rules.checkLockTimeVerify ∧
    ¬ (rules.derSig ∨ rules.lowS ∨ rules.strictEnc) ∧ hash.length = 20 ∧
    ∃ script, Template.hashTimeLock 100 [1] hash [2] = .ok script ∧
      (interpreter.eval (.ofBottomFirst [[9], [5], [1]]) script rules).outcome ()
        = .ok (.ofBottomFirst [[9], [1]]) ∧
      (interpreter.eval (.ofBottomFirst [[9], [5], [7], []]) script rules).outcome ()
        = .ok (.ofBottomFirst [[9], []]) := by
  have hhash : hash.length = 20 := Hashes.length_hash160 _ _
  obtain ⟨script, hscript, hsender, hrecipient⟩ :=
    Interpreter.hashTimeLock_released interpreter rfl rfl rules rfl (by decide) 100 [1] hash [2]
      (by decide) (by decide) hhash ()
  refine ⟨rfl, rfl, rfl, by decide, hhash, script, hscript, ?_, ?_⟩
  · exact hsender [[9]] [5] [1] (by decide) (by decide)
  · have hclaimed := hrecipient [[9]] [5] [7] [] (by decide) (by decide)
    have hknown : interpreter.hashes.hash160 [7] = hash := rfl
    rw [if_pos hknown] at hclaimed
    exact hclaimed

end SpendScript
