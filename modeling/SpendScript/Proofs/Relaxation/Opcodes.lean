import SpendScript.Proofs.Session
/-!
# Opcodes under fewer rules and higher limits

A rule may only add failures, and so may a limit. Were one of them to change a result instead,
dropping it would turn one accepted spend into another, and that is what this file excludes for
every opcode.

What this file fixes:

* `Carries` -- a success of the one computation is a success of the other, with the same result.
  It is closed under sequencing (`Carries.bind`), which is all that the opcodes need.
* `SoftFork` -- what makes one set of rules an extension of another by failures alone.
* `Limits.Below` -- the order of limits, field by field.
* `Relaxation` -- the same script under no more rules and no lower limits.
* `Relaxation.operation`, `Relaxation.chunk` -- an opcode that succeeds in the one context succeeds
  in the relaxed one, and leaves the same state.
-/

namespace SpendScript

variable {ε α β : Type}

/-! ## 1. Successes that carry over -/

/-- A success of the first is a success of the second, with the same result. -/
def Carries (x y : Except ε α) : Prop := ∀ a, x = .ok a → y = .ok a

namespace Carries

theorem refl (x : Except ε α) : Carries x x := fun _ h => h

theorem of_error {e : ε} (y : Except ε α) : Carries (.error e) y := fun _ h => nomatch h

/-- **Sequences carry over** when their pieces do. -/
theorem bind {x y : Except ε α} {f g : α → Except ε β} (hx : Carries x y)
    (hf : ∀ a, Carries (f a) (g a)) : Carries (x >>= f) (y >>= g) := by
  intro b h
  cases hxa : x with
  | error e => rw [hxa] at h; cases h
  | ok a =>
    rw [hxa] at h
    rw [hx a hxa]
    exact hf a b h

theorem mapError {δ : Type} {x y : Except ε α} (h : Carries x y) (e : ε → δ) :
    Carries (x.mapError e) (y.mapError e) := by
  intro a ha
  cases hx : x with
  | error _ => rw [hx] at ha; cases ha
  | ok b =>
    rw [hx] at ha
    rw [h b hx]
    exact ha

/-- What both sides compute alike. -/
theorem of_eq {x y : Except ε α} (h : x = y) : Carries x y := h ▸ refl x

/-- A failure that the first side has whenever the second has one. -/
theorem guarded {p q : Prop} [Decidable p] [Decidable q] (hqp : q → p) {x y : Except ε α}
    (h : Carries x y) (e e' : ε) :
    Carries (if p then .error e else x) (if q then .error e' else y) := by
  by_cases hp : p
  · rw [if_pos hp]
    exact of_error _
  · rw [if_neg hp, if_neg fun hq => hp (hqp hq)]
    exact h

/-- A check that the first side makes whenever the second makes it. -/
theorem checked {p q : Prop} [Decidable p] [Decidable q] (hqp : q → p) (x : Except ε Unit) :
    Carries (if p then x else .ok ()) (if q then x else .ok ()) := by
  intro a h
  by_cases hq : q
  · rw [if_pos (hqp hq)] at h
    rw [if_pos hq, h]
  · rw [if_neg hq]

/-- Runs in sequence; the questions they ask play no part. -/
theorem bindRun {x y : Run α} {f g : α → Run β} (hx : Carries x.result y.result)
    (hf : ∀ a, Carries (f a).result (g a).result) :
    Carries (x >>= f).result (y >>= g).result := by
  rw [Run.result_bind, Run.result_bind]
  exact hx.bind hf

end Carries

/-- The same for operations on a stack: from every stack, with the same stack left. -/
def StackOp.Carries (x y : StackOp Bytes α) : Prop := ∀ s a t, x s = .ok a t → y s = .ok a t

namespace StackOp.Carries

theorem refl (x : StackOp Bytes α) : StackOp.Carries x x := fun _ _ _ h => h

theorem bind {x y : StackOp Bytes α} {f g : α → StackOp Bytes β} (hx : StackOp.Carries x y)
    (hf : ∀ a, StackOp.Carries (f a) (g a)) : StackOp.Carries (x >>= f) (y >>= g) := by
  intro s b t h
  obtain ⟨a, r, hxs, h⟩ := EStateM.eq_ok_of_bind h
  rw [EStateM.bind_ok (hx s a r hxs)]
  exact hf a r b t h

theorem lift {x y : Except Failure α} (h : SpendScript.Carries x y) :
    StackOp.Carries (Stack.lift x) (Stack.lift y) := by
  intro s a t hs
  cases hx : x with
  | error e => rw [hx] at hs; cases hs
  | ok b =>
    rw [hx] at hs
    rw [h b hx]
    exact hs

theorem unop {f g : Bytes → Except Failure Bytes} (h : ∀ x, SpendScript.Carries (f x) (g x)) :
    StackOp.Carries (Stack.unop f) (Stack.unop g) :=
  bind (refl _) fun x => bind (lift (h x)) fun _ => refl _

theorem binfn {f g : Bytes → Bytes → Except Failure α}
    (h : ∀ x y, SpendScript.Carries (f x y) (g x y)) :
    StackOp.Carries (Stack.binfn f) (Stack.binfn g) :=
  bind (refl _) fun _ => bind (refl _) fun x2 => bind (refl _) fun x1 => lift (h x1 x2)

theorem binop {f g : Bytes → Bytes → Except Failure Bytes}
    (h : ∀ x y, SpendScript.Carries (f x y) (g x y)) :
    StackOp.Carries (Stack.binop f) (Stack.binop g) :=
  bind (binfn h) fun _ => refl _

theorem onStack {x y : StackOp Bytes Unit} (h : StackOp.Carries x y) (s : State) :
    SpendScript.Carries (s.onStack x) (s.onStack y) := by
  intro t hs
  unfold State.onStack at hs ⊢
  cases hx : x s.stack with
  | error e _ => rw [hx] at hs; cases hs
  | ok a below =>
    rw [hx] at hs
    rw [h s.stack a below hx]
    exact hs

end StackOp.Carries

/-! ## 2. Sets of rules -/

/-- Every rule of the one set is a rule of the other, switch by switch. -/
theorem Flags.subset_iff {f g : Flags} : f ⊆ g ↔
    (f.p2sh → g.p2sh) ∧ (f.strictEnc → g.strictEnc) ∧ (f.derSig → g.derSig) ∧
    (f.lowS → g.lowS) ∧ (f.nullDummy → g.nullDummy) ∧ (f.sigPushOnly → g.sigPushOnly) ∧
    (f.minimalData → g.minimalData) ∧
    (f.discourageUpgradableNops → g.discourageUpgradableNops) ∧
    (f.cleanStack → g.cleanStack) ∧ (f.checkLockTimeVerify → g.checkLockTimeVerify) := by
  show f.union g = g ↔ _
  cases f
  cases g
  simp only [Flags.union, Flags.mk.injEq, Bool.or_eq_right_iff_imp]

/-- **What makes rules a soft fork** of fewer rules, as far as single scripts go. The lock time
opcode is the one that a rule gives a meaning: where its use as an idle opcode is discouraged, it
must have had that meaning before. -/
structure SoftFork (f g : Flags) : Prop where
  subset : f ⊆ g
  lockTime : f.discourageUpgradableNops → g.checkLockTimeVerify → f.checkLockTimeVerify

/-- The same script under other rules. -/
def Context.under (c : Context) (flags : Flags) : Context := { c with flags }

namespace SoftFork

variable {f g : Flags}

theorem refl (f : Flags) : SoftFork f f := ⟨Flags.subset_refl f, fun _ hlock => hlock⟩

theorem minimalData (h : SoftFork f g) : f.minimalData → g.minimalData :=
  (Flags.subset_iff.mp h.subset).2.2.2.2.2.2.1

theorem discourages (h : SoftFork f g) :
    f.discourageUpgradableNops → g.discourageUpgradableNops :=
  (Flags.subset_iff.mp h.subset).2.2.2.2.2.2.2.1

theorem nullDummy (h : SoftFork f g) : f.nullDummy → g.nullDummy :=
  (Flags.subset_iff.mp h.subset).2.2.2.2.1

theorem encodingRules (h : SoftFork f g) :
    ((Execute.encodingRules f).der → (Execute.encodingRules g).der) ∧
    ((Execute.encodingRules f).lowS → (Execute.encodingRules g).lowS) ∧
    ((Execute.encodingRules f).strict → (Execute.encodingRules g).strict) := by
  obtain ⟨_, hstrict, hder, hlow, _⟩ := Flags.subset_iff.mp h.subset
  refine ⟨?_, hlow, hstrict⟩
  unfold Execute.encodingRules
  simp only [Bool.or_eq_true]
  rintro ((hf | hf) | hf)
  · exact .inl (.inl (hder hf))
  · exact .inl (.inr (hlow hf))
  · exact .inr (hstrict hf)

theorem checkSignature_carries {rules rules' : Encoding.Rules} (hder : rules'.der → rules.der)
    (hlow : rules'.lowS → rules.lowS) (hstrict : rules'.strict → rules.strict)
    (reader : Ecdsa.Reader) (sig : Bytes) :
    Carries (Encoding.checkSignature reader rules sig)
      (Encoding.checkSignature reader rules' sig) := by
  cases hlast : sig.getLast? with
  | none =>
    unfold Encoding.checkSignature
    rw [hlast]
    exact .refl _
  | some hashType =>
    rw [Encoding.checkSignature_eq_bind hlast, Encoding.checkSignature_eq_bind hlast]
    refine .bind (.checked ?_ _) fun _ => .bind (.guarded ?_ (.refl _) _ _) fun _ =>
      .checked hstrict _
    · simp only [Bool.or_eq_true]
      exact Or.imp (Or.imp hder hlow) hstrict
    · simp only [Bool.and_eq_true]
      exact And.imp_left hlow

/-- **Encodings that pass more rules pass fewer.** -/
theorem vet (h : SoftFork f g) (reader : Ecdsa.Reader) (sig key : Bytes) :
    Carries (Execute.vet reader g sig key) (Execute.vet reader f sig key) := by
  obtain ⟨hder, hlow, hstrict⟩ := h.encodingRules
  refine ((checkSignature_carries hder hlow hstrict reader sig).mapError _).bind fun _ =>
    Carries.mapError ?_ _
  unfold Encoding.checkPublicKey
  refine Carries.guarded ?_ (.refl _) _ _
  simp only [Bool.and_eq_true]
  exact And.imp_left hstrict

end SoftFork

/-! ## 3. Contexts -/

/-- No limit of the one is above that of the other. -/
structure Limits.Below (l l' : Limits) : Prop where
  push : l.maxPushSize ≤ l'.maxPushSize
  ops : l.maxOpCount ≤ l'.maxOpCount
  depth : l.maxStackSize ≤ l'.maxStackSize
  script : l.maxScriptSize ≤ l'.maxScriptSize
  number : l.maxNumSize ≤ l'.maxNumSize
  keys : l.maxPubKeyCount ≤ l'.maxPubKeyCount

instance : LE Limits := ⟨Limits.Below⟩

theorem Limits.le_refl (l : Limits) : l ≤ l :=
  ⟨Nat.le_refl _, Nat.le_refl _, Nat.le_refl _, Nat.le_refl _, Nat.le_refl _, UInt8.le_refl _⟩

/-- **The same script where less is forbidden**: there are no more rules, and no limit is lower. -/
structure Relaxation (c d : Context) : Prop where
  rules : SoftFork d.flags c.flags
  limits : c.limits ≤ d.limits
  checker : d.checker = c.checker
  hashes : d.hashes = c.hashes
  reader : d.reader = c.reader
  script : d.script = c.script

/-- Dropping rules is a relaxation. -/
theorem SoftFork.relaxation {f g : Flags} (h : SoftFork f g) (c : Context) :
    Relaxation (c.under g) (c.under f) := ⟨h, Limits.le_refl _, rfl, rfl, rfl, rfl⟩

/-! ## 4. Numbers -/

/-- **A number that is read is the same number** where more bytes are allowed and where the
shortest form is not asked for. -/
theorem ScriptNumber.decode_carries {minimal minimal' : Bool} {maxSize maxSize' : Nat}
    (hminimal : minimal' → minimal) (hsize : maxSize ≤ maxSize') (x : Bytes) :
    Carries (decode x minimal maxSize) (decode x minimal' maxSize') := by
  unfold decode
  refine .guarded (Nat.lt_of_le_of_lt hsize) (.guarded ?_ (.refl _) _ _) _ _
  simp only [Bool.and_eq_true]
  exact And.imp_left hminimal

namespace Relaxation

open Execute

variable {c d : Context}

theorem number (h : Relaxation c d) (x : Bytes) : Carries (c.number x) (d.number x) :=
  (ScriptNumber.decode_carries h.rules.minimalData h.limits.number x).mapError Failure.ofNumber

theorem unary (h : Relaxation c d) (fn : Int → Option Int) :
    StackOp.Carries (Execute.unary c fn) (Execute.unary d fn) :=
  .unop fun x => (h.number x).bind fun _ => .refl _

theorem unaryTest (h : Relaxation c d) (fn : Int → Bool) :
    StackOp.Carries (Execute.unaryTest c fn) (Execute.unaryTest d fn) :=
  .unop fun x => (h.number x).bind fun _ => .refl _

theorem binary (h : Relaxation c d) (fn : Int → Int → Option Int) :
    StackOp.Carries (Execute.binary c fn) (Execute.binary d fn) :=
  .binop fun x y => (h.number x).bind fun _ => (h.number y).bind fun _ => .refl _

theorem binaryTest (h : Relaxation c d) (fn : Int → Int → Bool) :
    StackOp.Carries (Execute.binaryTest c fn) (Execute.binaryTest d fn) :=
  .binop fun x y => (h.number x).bind fun _ => (h.number y).bind fun _ => .refl _

theorem numEqualVerify (h : Relaxation c d) :
    StackOp.Carries (Execute.numEqualVerify c) (Execute.numEqualVerify d) :=
  .binfn fun x y => (h.number x).bind fun _ => (h.number y).bind fun _ => .refl _

theorem within (h : Relaxation c d) : StackOp.Carries (Execute.within c) (Execute.within d) :=
  .bind (.refl _) fun _ => .bind (.refl _) fun a => .bind (.lift (h.number a)) fun _ =>
    .bind (.refl _) fun low => .bind (.lift (h.number low)) fun _ =>
      .bind (.refl _) fun high => .bind (.lift (h.number high)) fun _ => .refl _

theorem popIndex (h : Relaxation c d) :
    StackOp.Carries (Execute.popIndex c) (Execute.popIndex d) :=
  .bind (.refl _) fun _ => .bind (.refl _) fun top =>
    .bind (.lift (h.number top)) fun _ => .refl _

/-! ## 5. Signatures and lock times -/

theorem askVetted (h : Relaxation c d) (sig key code : Bytes) :
    Carries (Execute.askVetted c sig key code).result
      (Execute.askVetted d sig key code).result := by
  unfold Execute.askVetted
  rw [h.reader, h.checker]
  exact .bindRun (h.rules.vet c.reader sig key) fun _ => .refl _

theorem scriptCode_eq (h : Relaxation c d) (s : State) (sigs : List Bytes) :
    scriptCode d s sigs = scriptCode c s sigs := by
  unfold scriptCode
  rw [h.script]

theorem checkSig (h : Relaxation c d) (verifying : Option FailureKind) (s : State) :
    Carries (Execute.checkSig c verifying s).result (Execute.checkSig d verifying s).result := by
  unfold Execute.checkSig
  split
  · rw [h.scriptCode_eq]
    exact .bindRun (h.askVetted _ _ _) fun _ => .refl _
  · exact .refl _

/-- The lock time opcode is a failure or leaves the state alone, in every context. -/
theorem lockTimeOpcode_carries (c : Context) (s : State) :
    Carries (Execute.lockTimeOpcode c s).result (.ok s) := by
  unfold Execute.lockTimeOpcode
  split
  · intro t ht
    rw [Run.result_bind] at ht
    cases hc : (checkLockTime c.flags c.checker s.stack).result with
    | error e => rw [hc] at ht; cases ht
    | ok _ => rw [hc] at ht; exact ht
  · show Carries (Execute.upgradable c s) (.ok s)
    unfold Execute.upgradable
    split
    · exact .of_error _
    · exact .refl _

/-- A lock time may always have five bytes, so that only the rules matter here. -/
theorem checkLockTime {f g : Flags} (h : SoftFork f g) (checker : Checker)
    (stack : Stack Bytes) :
    Carries (Execute.checkLockTime g checker stack).result
      (Execute.checkLockTime f checker stack).result := by
  unfold Execute.checkLockTime
  split
  · exact .of_error _
  · intro a ha
    cases hg : ScriptNumber.decode _ g.minimalData lockTimeSize with
    | error e => rw [hg] at ha; cases ha
    | ok n =>
      rw [hg] at ha
      rw [ScriptNumber.decode_carries h.minimalData (Nat.le_refl _) _ n hg]
      exact ha

theorem upgradable (h : Relaxation c d) (s : State) :
    Carries (Execute.upgradable c s) (Execute.upgradable d s) :=
  .guarded h.rules.discourages (.refl _) _ _

/-- **The opcode that a rule gives a meaning.** Without the rule it is idle, and the rule only
makes it fail. -/
theorem lockTimeOpcode (h : Relaxation c d) (s : State) :
    Carries (Execute.lockTimeOpcode c s).result (Execute.lockTimeOpcode d s).result := by
  obtain ⟨_, _, _, _, _, _, _, _, _, hlock⟩ := Flags.subset_iff.mp h.rules.subset
  by_cases hd : d.flags.checkLockTimeVerify = true
  · unfold Execute.lockTimeOpcode
    rw [if_pos (hlock hd), if_pos hd, h.checker]
    exact .bindRun (checkLockTime h.rules c.checker s.stack) fun _ => .refl _
  · have hidle : Execute.lockTimeOpcode d s = .ofExcept (Execute.upgradable d s) := if_neg hd
    rw [hidle]
    by_cases hc : c.flags.checkLockTimeVerify = true
    · have hfree : ¬ d.flags.discourageUpgradableNops = true :=
        fun hnops => hd (h.rules.lockTime hnops hc)
      have hok : Execute.upgradable d s = .ok s := if_neg hfree
      rw [hok]
      exact lockTimeOpcode_carries c s
    · have hidle : Execute.lockTimeOpcode c s = .ofExcept (Execute.upgradable c s) := if_neg hc
      rw [hidle]
      exact h.upgradable s

theorem pairUp_carries {ask ask' : Pairing → Run Bool}
    (h : ∀ p, Carries (ask p).result (ask' p).result) (keysLeft : Nat) (p : Pairing) :
    Carries (pairUp ask keysLeft p).result (pairUp ask' keysLeft p).result := by
  induction keysLeft generalizing p with
  | zero => unfold pairUp; exact .refl _
  | succ keysLeft ih =>
    unfold pairUp
    split
    · exact .refl _
    · refine .bindRun (h p) fun fits => ?_
      dsimp only
      split
      · exact .refl _
      · exact ih _

/-- A count within a limit is within a higher one. -/
theorem readCount (h : Relaxation c d) (kind : FailureKind) {limit limit' : Nat}
    (hlimit : limit ≤ limit') (element : Bytes) :
    Carries (Execute.readCount c kind limit element) (Execute.readCount d kind limit' element) := by
  refine (h.number element).bind fun n => ?_
  intro count hcount
  split at hcount
  · next hbound =>
    rw [if_pos ⟨hbound.1, Int.le_trans hbound.2 (Int.ofNat_le.mpr hlimit)⟩]
    exact hcount
  · cases hcount

theorem readKeyCount (h : Relaxation c d) (s : State) :
    Carries (Execute.readKeyCount c s) (Execute.readKeyCount d s) := by
  refine .bind (.refl _) fun _ => .bind (.refl _) fun top =>
    .bind (h.readCount _ (UInt8.le_iff_toNat_le.mp h.limits.keys) top) fun keyCount => ?_
  exact .guarded (Nat.lt_of_le_of_lt h.limits.ops) (.refl _) _ _

theorem readLayout (h : Relaxation c d) (stack : Stack Bytes) (keyCount : Nat) :
    Carries (Execute.readLayout c stack keyCount) (Execute.readLayout d stack keyCount) :=
  .bind (.refl _) fun _ => .bind (.refl _) fun _ => .bind (.refl _) fun element =>
    .bind (h.readCount _ (Nat.le_refl _) element) fun _ => .refl _

theorem dropOperands (h : Relaxation c d) (l : MultisigLayout) (stack : Stack Bytes) :
    Carries (Execute.dropOperands c l stack) (Execute.dropOperands d l stack) := by
  unfold Execute.dropOperands
  split
  · exact .of_error _
  · refine .guarded ?_ (.refl _) _ _
    simp only [Bool.and_eq_true]
    exact And.imp_left h.rules.nullDummy

theorem checkMultisig (h : Relaxation c d) (verifying : Option FailureKind) (s : State) :
    Carries (Execute.checkMultisig c verifying s).result
      (Execute.checkMultisig d verifying s).result := by
  refine .bindRun (h.readKeyCount s) fun ⟨keyCount, s⟩ => ?_
  refine .bindRun (h.readLayout s.stack keyCount) fun l => ?_
  rw [h.scriptCode_eq]
  refine .bindRun (pairUp_carries (fun p => ?_) l.keyCount _) fun answer => ?_
  · exact .bindRun (.refl _) fun _ => .bindRun (.refl _) fun _ => h.askVetted _ _ _
  · exact .bindRun (h.dropOperands l s.stack) fun _ => .refl _

/-! ## 6. Chunks -/

/-- **Every operation carries over.** Those that no rule and no limit touches are the same on both
sides. -/
theorem operation (h : Relaxation c d) (position : Nat) (s : State) (op : Operation) :
    Carries (Execute.operation c position s op).result
      (Execute.operation d position s op).result := by
  cases op
  case nop1 | nop3 | nop4 | nop5 | nop6 | nop7 | nop8 | nop9 | nop10 => exact h.upgradable s
  case checkLockTimeVerify => exact h.lockTimeOpcode s
  case pick => exact (h.popIndex.bind fun _ => .refl _).onStack s
  case roll => exact (h.popIndex.bind fun _ => .refl _).onStack s
  case add1 | sub1 | negate | abs => exact (h.unary _).onStack s
  case not | notEqual0 => exact (h.unaryTest _).onStack s
  case add | sub | min | max => exact (h.binary _).onStack s
  case boolAnd | boolOr | numEqual | numNotEqual | lessThan | greaterThan | lessThanOrEqual
      | greaterThanOrEqual => exact (h.binaryTest _).onStack s
  case numEqualVerify => exact h.numEqualVerify.onStack s
  case within => exact h.within.onStack s
  case ripemd160 | sha1 | sha256 | hash160 | hash256 =>
    unfold Execute.operation
    rw [h.hashes]
    exact .refl _
  case checkSig | checkSigVerify => exact h.checkSig _ s
  case checkMultisig | checkMultisigVerify => exact h.checkMultisig _ s
  all_goals exact .refl _

theorem push (h : Relaxation c d) (p : Push) (s : State) :
    Carries (Execute.push c p s) (Execute.push d p s) := by
  refine Carries.guarded ?_ (.refl _) _ _
  simp only [Bool.and_eq_true]
  exact And.imp_left h.rules.minimalData

/-- **Every chunk carries over.** -/
theorem chunk (h : Relaxation c d) (position : Nat) (s : State) (chunk : Chunk) :
    Carries (Execute.chunk c position s chunk).result
      (Execute.chunk d position s chunk).result := by
  cases chunk with
  | push p => exact h.push p s
  | operation op => exact h.operation position s op
  | control op => exact .refl _
  | disabled _ => exact .refl _
  | bad b => exact .refl _

end Relaxation

end SpendScript
