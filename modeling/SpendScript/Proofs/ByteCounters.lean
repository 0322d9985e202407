import SpendScript.Proofs.Multisig
import SpendScript.Proofs.StackCalls
/-!
# The counters of a check of several signatures are bytes

A check of several signatures goes down the stack with counters, and its loop moves four of them at
once. Counters that are bytes could run over or fall below zero, and the limit on keys may be as high
as a byte goes. Three of the sums are tested and fail the opcode; the others, every difference and
every access to an operand are not.

Here the opcode is written once more with bytes for counters, and whatever is not tested and could go
wrong is a fault, which no failure of the opcode can hide. This file says that it is the opcode that
runs: it ends in no fault, whatever the limits, the rules, the checker, the stack and the counts on
it.

What this file fixes:

* `Bytewise.Fault`, `Bytewise.Watched` -- what must not happen, and runs in which it would show.
* `Bytewise.checkMultisig` -- the opcode with bytes for counters, step by step.
* `Bytewise.Agrees` -- a watched run ends in no fault and is a given run; such runs can be put
  together (`Agrees.bind`).
* `Bytewise.Counters.Sound` -- what links the counters: the keys that are left end above the
  signatures, the signatures that are left end where the count came to, all of it lies on the stack,
  and there are no more signatures left than keys. `Counters.sound_of_readLayout` says that the loop
  starts so, `Counters.Sound.moved` that a pass keeps it.
* `Bytewise.matchPairs_eq` -- the loop, by induction on the keys that are left.
* `Execute.multisig_faultless` -- the whole opcode.
-/

namespace SpendScript.Execute

namespace Bytewise

variable {α β : Type}

/-! ## 1. Faults -/

theorem toNat_add_of_le {a b : UInt8} (h : a.toNat + b.toNat ≤ 255) :
    (a + b).toNat = a.toNat + b.toNat := by
  rw [UInt8.toNat_add, Nat.mod_eq_of_lt (by omega)]

theorem toNat_add_one {a : UInt8} (h : a.toNat < 255) : (a + 1).toNat = a.toNat + 1 :=
  toNat_add_of_le (show a.toNat + 1 ≤ 255 from h)

theorem toNat_sub_one {a : UInt8} (h : a ≠ 0) : (a - 1).toNat + 1 = a.toNat := by
  have hpos : 0 < a.toNat := Nat.pos_of_ne_zero fun hzero => h (UInt8.toNat_inj.mp hzero)
  have hle : 1 ≤ a := UInt8.le_iff_toNat_le.mpr hpos
  rw [UInt8.toNat_sub_of_le a 1 hle]
  exact Nat.sub_add_cancel hpos

/-- What must not happen to counters and operands. -/
inductive Fault where
  /-- a sum that is no byte and is not tested -/
  | overflow
  /-- a difference below zero -/
  | underflow
  /-- a pair that is tried with fewer keys left than signatures -/
  | outnumbered
  /-- an operand that is not there after all of them were counted -/
  | missing
  deriving DecidableEq, Repr

/-- A run that ends in a fault instead if one happens. -/
abbrev Watched := ExceptT Fault Run

/-- A sum that is not tested. -/
def plus (a b : UInt8) : Watched UInt8 :=
  if a.toNat + b.toNat ≤ 255 then return a + b else throw .overflow

/-- A sum that is tested: the opcode fails where it is no byte. -/
def testedPlus (kind : FailureKind) (a b : UInt8) : Except Failure UInt8 :=
  if a.toNat + b.toNat ≤ 255 then .ok (a + b) else .error (.plain kind)

/-- A difference, which is not tested. -/
def minus (a b : UInt8) : Watched UInt8 :=
  if b ≤ a then return a - b else throw .underflow

/-- The index of a position that is counted from one. -/
def index (position : UInt8) : Watched Nat :=
  if position = 0 then throw .underflow else return position.toNat - 1

/-- An operation on a stack that has to succeed. -/
def present (op : StackOp Bytes α) (stack : Stack Bytes) : Watched (α × Stack Bytes) :=
  match op stack with
  | .ok x left => return (x, left)
  | .error _ _ => throw .missing

/-- The element at a position, which has to be there. -/
def operandAt (stack : Stack Bytes) (position : UInt8) : Watched Bytes := do
  let (x, _) ← present (Stack.get (← index position)) stack
  return x

/-- A count that the stack gives, up to a limit. -/
def readCount (c : Context) (kind : FailureKind) (limit : UInt8) (element : Bytes) :
    Except Failure UInt8 := do
  let n ← c.number element
  if 0 ≤ n ∧ n ≤ 255 ∧ UInt8.ofNat n.toNat ≤ limit then return UInt8.ofNat n.toNat
  else throw (.plain kind)

/-! ## 2. The opcode -/

/-- The counters. Positions are counted from one at the top. -/
structure Counters where
  /-- the position of the spare element -/
  reached : UInt8
  keyAt : UInt8
  sigAt : UInt8
  keysLeft : UInt8
  sigsLeft : UInt8
  deriving DecidableEq, Repr

/-- Reads the count of keys at a position. -/
def readKeyCount (c : Context) (s : State) (position : UInt8) : Watched (UInt8 × State) := do
  peek (Stack.checkLen position.toNat) s.stack
  let top ← peek (Stack.get (← index position)) s.stack
  let keyCount ← readCount c .pubKeyCount c.limits.maxPubKeyCount top
  let opCount := s.opCount + keyCount.toNat
  if c.limits.maxOpCount < opCount then Run.fail (.plain .opCount)
  else return (keyCount, { s with opCount })

/-- Reads the rest of the layout below the position of the count of keys. -/
def readLayout (c : Context) (stack : Stack Bytes) (position keysLeft : UInt8) :
    Watched Counters := do
  let keyAt ← plus position 1
  let position ← testedPlus .pubKeyCount keyAt keysLeft
  peek (Stack.checkLen position.toNat) stack
  let element ← peek (Stack.get (← index position)) stack
  let sigsLeft ← readCount c .sigCount keysLeft element
  let sigAt ← testedPlus .pubKeyCount position 1
  let reached ← testedPlus .sigCount sigAt sigsLeft
  peek (Stack.checkLen reached.toNat) stack
  return { reached, keyAt, sigAt, keysLeft, sigsLeft }

/-- Takes the pushes of one of the signatures out of a script. -/
def deleteSignature (stack : Stack Bytes) (p : Counters) (script : Program) (k : Nat) :
    Watched Program := do
  let sig ← operandAt stack (← plus p.sigAt (UInt8.ofNat k))
  return script.findAndDelete sig

/-- Takes the pushes of all signatures out of a script, one signature after the other. -/
def deleteSignatures (stack : Stack Bytes) (p : Counters) (script : Program) : Watched Program :=
  (List.range p.sigsLeft.toNat).foldlM (deleteSignature stack p) script

/-- Asks whether the signature that is due fits the key that is due. -/
def tryPair (c : Context) (stack : Stack Bytes) (code : Bytes) (p : Counters) : Watched Bool := do
  if p.keysLeft < p.sigsLeft then throw .outnumbered
  let sig ← operandAt stack p.sigAt
  let key ← operandAt stack p.keyAt
  askVetted c sig key code

/-- Goes on to the next signature after a fit. -/
def nextSignature (p : Counters) (fits : Bool) : Watched Counters :=
  if fits then do
    let sigAt ← plus p.sigAt 1
    let sigsLeft ← minus p.sigsLeft 1
    return { p with sigAt, sigsLeft }
  else return p

/-- Matches signatures to keys, as long as there are signatures left and keys enough for them. -/
def matchPairs (c : Context) (stack : Stack Bytes) (code : Bytes) (p : Counters) : Watched Bool :=
  if p.sigsLeft = 0 then return true
  else do
    let fits ← tryPair c stack code p
    let next ← nextSignature p fits
    let keyAt ← plus p.keyAt 1
    -- the keys that are left go down by one; this is the measure of the recursion
    if h : p.keysLeft = 0 then throw .underflow
    else
      let next := { next with keyAt, keysLeft := p.keysLeft - 1 }
      if next.keysLeft < next.sigsLeft then return false else matchPairs c stack code next
termination_by p.keysLeft.toNat
decreasing_by
  show (p.keysLeft - 1).toNat < p.keysLeft.toNat
  have hless := toNat_sub_one h
  omega

/-- Takes so many elements off. -/
def popAll : Nat → StackOp Bytes Unit
  | 0 => pure ()
  | n + 1 => do
    discard Stack.pop
    popAll n

/-- Takes the operands off one by one, and then the spare element. -/
def dropOperands (c : Context) (stack : Stack Bytes) (p : Counters) : Watched (Stack Bytes) := do
  let (_, rest) ← present (popAll (p.reached.toNat - 1)) stack
  let (spare, below) ← present Stack.pop rest
  if c.flags.nullDummy && !spare.isEmpty then Run.fail (.plain .sigNullDummy) else return below

/-- `spare sigs m keys n -- b`, whether the signatures fit keys in the same order -/
def checkMultisig (c : Context) (verifying : Option FailureKind) (s : State) : Watched State := do
  let position : UInt8 := 1
  let (keyCount, s) ← readKeyCount c s position
  let p ← readLayout c s.stack position keyCount
  let script ← deleteSignatures s.stack p (c.script.subscript s.beginCode)
  let answer ← matchPairs c s.stack script.encode p
  let below ← dropOperands c s.stack p
  let stack ← conclude verifying answer below
  return { s with stack }

/-! ## 3. Watched runs without faults -/

variable {γ δ : Type}

/-- Only what is returned without a fault goes on. -/
theorem bind_congr {x : Watched α} {f g : α → Watched β}
    (h : ∀ a, x.run.result = .ok (.ok a) → f a = g a) : x >>= f = x >>= g := by
  refine ExceptT.ext ?_
  rw [ExceptT.run_bind, ExceptT.run_bind]
  refine Run.bind_congr fun r hr => ?_
  cases r with
  | error fault => rfl
  | ok a => exact congrArg ExceptT.run (h a hr)

/-- **A watched run agrees with a run**: it ends in no fault, asks the same questions, and fails
alike or has a result that is read as the other one. -/
def Agrees (read : α → β) (x : Watched α) (y : Run β) : Prop := read <$> x = liftM y

namespace Agrees

variable {read : α → β} {x : Watched α} {y : Run β}

theorem map_run_result (h : Agrees read x y) :
    x.run.result.map (Except.map read) = y.result.map Except.ok := by
  rw [← Run.result_map, ← Run.result_map, ← ExceptT.run_map, h]
  rfl

/-- What is returned without a fault is read as what the run returns. -/
theorem result_eq {a : α} (h : Agrees read x y) (ha : x.run.result = .ok (.ok a)) :
    y.result = .ok (read a) := by
  have hrun := h.map_run_result
  rw [ha] at hrun
  cases hy : y.result with
  | error e => rw [hy] at hrun; cases hrun
  | ok b => rw [hy] at hrun; cases hrun; rfl

theorem faultless (h : Agrees read x y) (fault : Fault) : x.run.result ≠ .ok (.error fault) := by
  intro hfault
  have hrun := h.map_run_result
  rw [hfault] at hrun
  cases hy : y.result with
  | error e => rw [hy] at hrun; cases hrun
  | ok b => rw [hy] at hrun; cases hrun

theorem of_eq {x : Watched α} {y : Run α} (h : x = liftM y) : Agrees id x y := by
  rw [Agrees, id_map, h]

theorem eq {x : Watched α} {y : Run α} (h : Agrees id x y) : x = liftM y := by
  rw [Agrees, id_map] at h
  exact h

/-- **Runs that agree, one after the other, agree.** -/
theorem bind {next : γ → δ} {f : α → Watched γ} {g : β → Run δ} (hx : Agrees read x y)
    (hf : ∀ a, y.result = .ok (read a) → Agrees next (f a) (g (read a))) :
    Agrees next (x >>= f) (y >>= g) := by
  rw [Agrees, map_bind, liftM_bind, ← hx, bind_map_left]
  exact bind_congr fun a ha => hf a (hx.result_eq ha)

/-- The same step on both sides, which asks nothing. -/
theorem bind_except {next : γ → δ} {x : Except Failure α} {f : α → Watched γ}
    {g : α → Except Failure δ} (hf : ∀ a, x = .ok a → Agrees next (f a) (Run.ofExcept (g a))) :
    Agrees next (liftM x >>= f) (Run.ofExcept (x >>= g)) := by
  cases x with
  | error e => rfl
  | ok a =>
    show Agrees next (pure a >>= f) _
    rw [pure_bind]
    exact hf a rfl

/-- A step whose result is a byte here and a number there. -/
theorem bind_byte {next : γ → δ} {x : Except Failure UInt8} {y : Except Failure Nat}
    (hx : x.map UInt8.toNat = y) {f : UInt8 → Watched γ} {g : Nat → Except Failure δ}
    (hf : ∀ b, y = .ok b.toNat → Agrees next (f b) (Run.ofExcept (g b.toNat))) :
    Agrees next (liftM x >>= f) (Run.ofExcept (y >>= g)) := by
  subst hx
  cases x with
  | error e => rfl
  | ok b =>
    show Agrees next (pure b >>= f) _
    rw [pure_bind]
    exact hf b rfl

end Agrees

/-! ## 4. Reading the operands -/

theorem plus_of_le {a b : UInt8} (h : a.toNat + b.toNat ≤ 255) : plus a b = pure (a + b) :=
  if_pos h

theorem plus_one {a : UInt8} (h : a.toNat < 255) : plus a 1 = pure (a + 1) :=
  plus_of_le (show a.toNat + 1 ≤ 255 from h)

theorem minus_of_le {a b : UInt8} (h : b ≤ a) : minus a b = pure (a - b) := if_pos h

theorem index_of_pos {position : UInt8} (h : 0 < position.toNat) :
    index position = pure (position.toNat - 1) := by
  refine if_neg fun hzero => ?_
  subst hzero
  exact absurd h (Nat.lt_irrefl 0)

theorem present_of_ok {op : StackOp Bytes α} {stack left : Stack Bytes} {x : α}
    (h : op stack = .ok x left) : present op stack = pure (x, left) := by
  unfold present
  rw [h]

theorem testedPlus_toNat (kind : FailureKind) (a b : UInt8) :
    (testedPlus kind a b).map UInt8.toNat = addCounter kind a.toNat b.toNat := by
  unfold testedPlus addCounter
  split
  · next h => exact congrArg Except.ok (toNat_add_of_le h)
  · rfl

/-- A count is a byte already by its limit. -/
theorem readCount_toNat (c : Context) (kind : FailureKind) (limit : UInt8) (element : Bytes) :
    (readCount c kind limit element).map UInt8.toNat
      = Execute.readCount c kind limit.toNat element := by
  unfold readCount Execute.readCount
  cases c.number element with
  | error e => rfl
  | ok n =>
    have hlimit : limit.toNat < 256 := limit.toNat_lt
    have hbyte : 0 ≤ n ∧ n ≤ 255 → (UInt8.ofNat n.toNat).toNat = n.toNat := fun h =>
      UInt8.toNat_ofNat_of_lt' (show n.toNat < 256 by omega)
    have hcount : 0 ≤ n ∧ n ≤ 255 ∧ UInt8.ofNat n.toNat ≤ limit ↔ 0 ≤ n ∧ n ≤ limit.toNat := by
      rw [UInt8.le_iff_toNat_le]
      constructor
      · rintro ⟨hlow, hhigh, hle⟩
        rw [hbyte ⟨hlow, hhigh⟩] at hle
        omega
      · rintro ⟨hlow, hle⟩
        have hhigh : n ≤ 255 := by omega
        rw [hbyte ⟨hlow, hhigh⟩]
        omega
    show (ite _ (pure _) (throw _) : Except Failure UInt8).map _ = ite _ (pure _) (throw _)
    by_cases hle : 0 ≤ n ∧ n ≤ limit.toNat
    · have hread := hcount.mpr hle
      rw [if_pos hread, if_pos hle]
      exact congrArg Except.ok (hbyte ⟨hread.1, hread.2.1⟩)
    · rw [if_neg (mt hcount.mp hle), if_neg hle]
      rfl

theorem agrees_readKeyCount (c : Context) (s : State) :
    Agrees (Prod.map UInt8.toNat id) (readKeyCount c s 1)
      (Run.ofExcept (Execute.readKeyCount c s)) := by
  unfold readKeyCount Execute.readKeyCount
  refine .bind_except fun _ _ => ?_
  rw [index_of_pos (by decide), pure_bind]
  refine .bind_except fun top _ => ?_
  refine .bind_byte (readCount_toNat _ _ _ _) fun keyCount _ => ?_
  dsimp only
  split
  · rfl
  · rfl

/-- What the counters say of the layout. -/
def Counters.layout (p : Counters) : MultisigLayout :=
  ⟨p.keysLeft.toNat, p.sigsLeft.toNat, p.keyAt.toNat, p.sigAt.toNat, p.reached.toNat⟩

theorem agrees_readLayout (c : Context) (stack : Stack Bytes) (keyCount : UInt8) :
    Agrees Counters.layout (readLayout c stack 1 keyCount)
      (Run.ofExcept (Execute.readLayout c stack keyCount.toNat)) := by
  unfold readLayout Execute.readLayout
  rw [plus_one (by decide), pure_bind]
  refine .bind_byte (testedPlus_toNat _ _ _) fun position hposition => ?_
  refine .bind_except fun _ _ => ?_
  have hpos : 0 < position.toNat := by
    rw [addCounter_ok hposition]
    exact Nat.add_pos_left (by decide) _
  rw [index_of_pos hpos, pure_bind]
  refine .bind_except fun element _ => ?_
  refine .bind_byte (readCount_toNat _ _ _ _) fun sigsLeft _ => ?_
  refine .bind_byte (testedPlus_toNat _ _ _) fun sigAt _ => ?_
  refine .bind_byte (testedPlus_toNat _ _ _) fun reached _ => ?_
  refine .bind_except fun _ _ => ?_
  rfl

-- a sum that is tested does run over, with a limit on keys that allows for it
example (c : Context) (stack : Stack Bytes) :
    readLayout c stack 1 254 = liftM (Run.fail (.plain .pubKeyCount) : Run Counters) := rfl

/-! ## 5. What links the counters -/

/-- **What links the counters.** The keys that are left end above the signatures, the signatures
that are left end at the spare element, which lies on the stack, and there are keys enough for the
signatures. All positions are below the last, which is a byte, so that no counter can run over. -/
structure Counters.Sound (stack : Stack Bytes) (p : Counters) : Prop where
  keyAt_pos : 0 < p.keyAt.toNat
  keys_above : p.keyAt.toNat + p.keysLeft.toNat < p.sigAt.toNat
  sigs_above : p.sigAt.toNat + p.sigsLeft.toNat = p.reached.toNat
  reached_le : p.reached.toNat ≤ stack.length
  enough : p.sigsLeft.toNat ≤ p.keysLeft.toNat

variable {c : Context} {stack : Stack Bytes} {p : Counters}

/-- **The counters are linked once the layout was read.** -/
theorem Counters.sound_of_readLayout {keyCount : Nat}
    (h : Execute.readLayout c stack keyCount = .ok p.layout) : p.Sound stack := by
  obtain ⟨sigCount, _, hle, hlayout, hdeep⟩ := readLayout_ok h
  obtain ⟨hkeys, hsigs, hkeyAt, hsigAt, hreached⟩ := MultisigLayout.mk.inj hlayout
  constructor
  all_goals omega

theorem Counters.reached_le_byte (p : Counters) : p.reached.toNat ≤ 255 :=
  Nat.le_of_lt_succ p.reached.toNat_lt

theorem Counters.Sound.keyAt_lt (h : p.Sound stack) : p.keyAt.toNat < 255 := by
  have hbyte := p.reached_le_byte
  have hkeys := h.keys_above
  have hsigs := h.sigs_above
  omega

/-- **An element stands at every position above the last.** -/
theorem Counters.Sound.exists_operandAt (h : p.Sound stack) (position : UInt8)
    (hpos : 0 < position.toNat) (hbelow : position.toNat < p.reached.toNat) :
    ∃ x, stack[position.toNat - 1]? = some x ∧ operandAt stack position = pure x := by
  have hreached := h.reached_le
  have hlt : position.toNat - 1 < stack.length := by omega
  have hget := List.getElem?_eq_getElem hlt
  refine ⟨_, hget, ?_⟩
  unfold operandAt
  rw [index_of_pos hpos, pure_bind, present_of_ok (Stack.get_of_getElem? hget), pure_bind]

/-! ## 6. The signatures that are taken out of the script -/

/-- One of the signatures. -/
theorem deleteSignature_eq (h : p.Sound stack) {k : Nat} (hk : k < p.sigsLeft.toNat)
    (script : Program) : ∃ sig, (stack.drop (p.sigAt.toNat - 1))[k]? = some sig ∧
      deleteSignature stack p script k = pure (script.findAndDelete sig) := by
  have hbyte := p.reached_le_byte
  have hsigs := h.sigs_above
  have hkeys := h.keys_above
  have hindex : (UInt8.ofNat k).toNat = k := UInt8.toNat_ofNat_of_lt' (show k < 256 by omega)
  have hsum : p.sigAt.toNat + (UInt8.ofNat k).toNat ≤ 255 := by omega
  have hposition : (p.sigAt + UInt8.ofNat k).toNat = p.sigAt.toNat + k := by
    rw [toNat_add_of_le hsum, hindex]
  obtain ⟨sig, hsig, hoperand⟩ := h.exists_operandAt (p.sigAt + UInt8.ofNat k) (by omega)
    (by omega)
  refine ⟨sig, ?_, ?_⟩
  · rw [List.getElem?_drop, ← hsig, hposition]
    congr 1
    omega
  · unfold deleteSignature
    rw [plus_of_le hsum, pure_bind, hoperand, pure_bind]

/-- **All signatures are there**, by induction on how many were taken out. -/
theorem deleteSignatures_eq (h : p.Sound stack) (script : Program) :
    deleteSignatures stack p script
      = pure ((p.layout.signatures stack).foldl Program.findAndDelete script) := by
  have hfirst : ∀ n ≤ p.sigsLeft.toNat,
      (List.range n).foldlM (deleteSignature stack p) script
        = pure (((stack.drop (p.sigAt.toNat - 1)).take n).foldl Program.findAndDelete script) := by
    intro n hn
    induction n with
    | zero => rfl
    | succ n ih =>
      obtain ⟨sig, hsig, hdelete⟩ := deleteSignature_eq h hn
        (((stack.drop (p.sigAt.toNat - 1)).take n).foldl Program.findAndDelete script)
      rw [List.range_succ, List.foldlM_append, ih (Nat.le_of_succ_le hn), pure_bind,
        List.take_add_one, hsig, List.foldl_append, List.foldlM_cons, hdelete, pure_bind]
      rfl
  exact hfirst _ (Nat.le_refl _)

/-! ## 7. The loop -/

/-- The positions that are due, and the signatures that are left. -/
def Counters.pairing (p : Counters) : Pairing := ⟨p.sigAt.toNat, p.keyAt.toNat, p.sigsLeft.toNat⟩

/-- The counters after a fit or a misfit, before the key is given up. -/
def Counters.matched (p : Counters) (fits : Bool) : Counters :=
  if fits then { p with sigAt := p.sigAt + 1, sigsLeft := p.sigsLeft - 1 } else p

/-- The counters after a pass. -/
def Counters.moved (p : Counters) (fits : Bool) : Counters :=
  { p.matched fits with keyAt := p.keyAt + 1, keysLeft := p.keysLeft - 1 }

section Pass

variable {code : Bytes}
variable (h : p.Sound stack) (hdue : p.sigsLeft ≠ 0)
include h hdue

theorem Counters.Sound.keysLeft_ne_zero : p.keysLeft ≠ 0 := by
  have henough := h.enough
  have hleft := toNat_sub_one hdue
  intro hzero
  rw [hzero] at henough
  exact absurd henough (by rw [← hleft]; exact Nat.not_succ_le_zero _)

theorem Counters.Sound.sigAt_lt : p.sigAt.toNat < 255 := by
  have hbyte := p.reached_le_byte
  have hsigs := h.sigs_above
  have hleft := toNat_sub_one hdue
  omega

/-- **The pair that is due is there.** -/
theorem tryPair_eq : tryPair c stack code p = liftM (askPair c stack code p.pairing) := by
  have hkeys := h.keys_above
  have hsigs := h.sigs_above
  have hkeyAt := h.keyAt_pos
  have hleft := toNat_sub_one hdue
  obtain ⟨sig, hsig, hsigOperand⟩ := h.exists_operandAt p.sigAt (by omega) (by omega)
  obtain ⟨key, hkey, hkeyOperand⟩ := h.exists_operandAt p.keyAt (by omega) (by omega)
  have hsig' : elementAt stack p.pairing.sigAt = .ok sig := elementAt_of_getElem? hsig
  have hkey' : elementAt stack p.pairing.keyAt = .ok key := elementAt_of_getElem? hkey
  have henough : ¬ p.keysLeft < p.sigsLeft := by
    rw [UInt8.lt_iff_toNat_lt]
    exact Nat.not_lt.mpr h.enough
  unfold tryPair askPair
  dsimp only
  rw [if_neg henough, hsigOperand, pure_bind, hkeyOperand, pure_bind, hsig', hkey']
  rfl

theorem nextSignature_eq (fits : Bool) : nextSignature p fits = pure (p.matched fits) := by
  have hsigsLeft : 1 ≤ p.sigsLeft := by
    rw [UInt8.le_iff_toNat_le, ← toNat_sub_one hdue]
    exact Nat.le_add_left 1 _
  unfold nextSignature Counters.matched
  split
  · rw [plus_one (h.sigAt_lt hdue), pure_bind, minus_of_le hsigsLeft, pure_bind]
  · rfl

/-- **A pass of the loop** is a question and a move of the counters. -/
theorem matchPairs_step : matchPairs c stack code p
    = liftM (askPair c stack code p.pairing) >>= fun fits =>
      if (p.moved fits).keysLeft < (p.moved fits).sigsLeft then pure false
      else matchPairs c stack code (p.moved fits) := by
  rw [matchPairs, if_neg hdue, tryPair_eq h hdue]
  congr 1
  funext fits
  rw [nextSignature_eq h hdue, pure_bind, plus_one h.keyAt_lt, pure_bind,
    dif_neg (h.keysLeft_ne_zero hdue)]
  rfl

/-- The counters move as the positions do. -/
theorem Counters.Sound.pairing_moved (fits : Bool) :
    (p.moved fits).pairing = p.pairing.advance fits := by
  have hkeyAt : (p.keyAt + 1).toNat = p.keyAt.toNat + 1 := toNat_add_one h.keyAt_lt
  have hsigAt : (p.sigAt + 1).toNat = p.sigAt.toNat + 1 := toNat_add_one (h.sigAt_lt hdue)
  have hsigsLeft : (p.sigsLeft - 1).toNat = p.sigsLeft.toNat - 1 :=
    Nat.eq_sub_of_add_eq (toNat_sub_one hdue)
  unfold Counters.moved Counters.matched Counters.pairing Pairing.advance
  cases fits with
  | true => simp only [if_true, hkeyAt, hsigAt, hsigsLeft]
  | false => simp only [Bool.false_eq_true, if_false, hkeyAt]

/-- **A pass keeps what links the counters**, where it leaves keys enough for the signatures. -/
theorem Counters.Sound.moved {fits : Bool}
    (henough : ¬ (p.moved fits).keysLeft < (p.moved fits).sigsLeft) :
    (p.moved fits).Sound stack := by
  have hkeys := h.keys_above
  have hsigs := h.sigs_above
  have hleft := toNat_sub_one hdue
  have hkeysLeft : (p.moved fits).keysLeft.toNat + 1 = p.keysLeft.toNat :=
    toNat_sub_one (h.keysLeft_ne_zero hdue)
  have hreached : (p.moved fits).reached = p.reached := by cases fits <;> rfl
  have hmoved := h.pairing_moved hdue fits
  rw [UInt8.lt_iff_toNat_lt, Nat.not_lt] at henough
  cases fits with
  | true =>
    obtain ⟨hsigAt, hkeyAt, hsigsLeft⟩ := Pairing.mk.inj hmoved
    refine ⟨?_, ?_, ?_, hreached ▸ h.reached_le, henough⟩
    · exact hkeyAt ▸ Nat.succ_pos _
    · rw [hsigAt, hkeyAt]
      show p.keyAt.toNat + 1 + _ < p.sigAt.toNat + 1
      omega
    · rw [hsigAt, hsigsLeft, hreached]
      show p.sigAt.toNat + 1 + (p.sigsLeft.toNat - 1) = p.reached.toNat
      omega
  | false =>
    obtain ⟨hsigAt, hkeyAt, hsigsLeft⟩ := Pairing.mk.inj hmoved
    refine ⟨?_, ?_, ?_, hreached ▸ h.reached_le, henough⟩
    · exact hkeyAt ▸ Nat.succ_pos _
    · rw [hsigAt, hkeyAt]
      show p.keyAt.toNat + 1 + _ < p.sigAt.toNat
      omega
    · rw [hsigAt, hsigsLeft, hreached]
      exact hsigs

end Pass

theorem matchPairs_done {code : Bytes} (hdone : p.sigsLeft = 0) (keysLeft : Nat) :
    matchPairs c stack code p = liftM (pairUp (askPair c stack code) keysLeft p.pairing) := by
  have hzero : p.pairing.sigsLeft = 0 := congrArg UInt8.toNat hdone
  rw [matchPairs, if_pos hdone]
  unfold pairUp
  rw [if_pos hzero]
  rfl

/-- **The loop ends in no fault and is the loop that runs**, by induction on the keys that are
left. -/
theorem matchPairs_eq {code : Bytes} (h : p.Sound stack) : matchPairs c stack code p
    = liftM (pairUp (askPair c stack code) p.keysLeft.toNat p.pairing) := by
  induction hkeys : p.keysLeft.toNat generalizing p with
  | zero =>
    have hnone : p.sigsLeft.toNat = 0 := Nat.le_zero.mp (hkeys ▸ h.enough)
    exact matchPairs_done (UInt8.toNat_inj.mp hnone) 0
  | succ keysLeft ih =>
    by_cases hdue : p.sigsLeft = 0
    · exact matchPairs_done hdue _
    have hsigs : p.pairing.sigsLeft ≠ 0 := fun hzero => hdue (UInt8.toNat_inj.mp hzero)
    rw [matchPairs_step h hdue]
    unfold pairUp
    rw [if_neg hsigs, liftM_bind]
    congr 1
    funext fits
    have hnext : (p.moved fits).keysLeft.toNat = keysLeft :=
      Nat.succ.inj ((toNat_sub_one (h.keysLeft_ne_zero hdue)).trans hkeys)
    have hfew : (p.moved fits).keysLeft < (p.moved fits).sigsLeft ↔
        keysLeft < (p.moved fits).pairing.sigsLeft := by
      rw [UInt8.lt_iff_toNat_lt, hnext]
      rfl
    rw [← h.pairing_moved hdue]
    by_cases hgiveUp : (p.moved fits).keysLeft < (p.moved fits).sigsLeft
    · rw [if_pos hgiveUp, if_pos (hfew.mp hgiveUp)]
      rfl
    · rw [if_neg hgiveUp, if_neg (mt hfew.mpr hgiveUp)]
      exact ih (h.moved hdue hgiveUp) hnext

/-! ## 8. Taking the operands off -/

theorem popAll_of_le {n : Nat} {stack : Stack Bytes} (h : n ≤ stack.length) :
    popAll n stack = .ok () (stack.drop n) := by
  induction n generalizing stack with
  | zero => rfl
  | succ n ih =>
    cases stack with
    | nil => exact absurd h (Nat.not_succ_le_zero n)
    | cons x below => exact ih (Nat.le_of_succ_le_succ h)

/-- **The operands and the spare element are there.** -/
theorem dropOperands_eq (h : p.Sound stack) :
    dropOperands c stack p = liftM (Execute.dropOperands c p.layout stack) := by
  have hreached := h.reached_le
  have hkeys := h.keys_above
  have hsigs := h.sigs_above
  have hlt : p.reached.toNat - 1 < stack.length := by omega
  have hspare := List.drop_eq_getElem_cons hlt
  have hsize : p.layout.size = p.reached.toNat := rfl
  unfold dropOperands Execute.dropOperands
  rw [present_of_ok (popAll_of_le (Nat.le_of_lt hlt)), pure_bind, hsize, hspare]
  dsimp only [Stack.pop_cons]
  rw [present_of_ok (Stack.pop_cons _ _), pure_bind]
  dsimp only
  split
  · rfl
  · rfl

end Bytewise

/-- **The counters of a check of several signatures are safe.** Whatever the limits, the rules, the
checker and the machine, so whatever counts lie on the stack: written with bytes for counters, the
opcode ends in no fault. No sum is over 255 unless it is tested and fails the opcode, no index is
taken of position zero, no difference is below zero, every pair is tried with at least as many keys
left as signatures, and once the operands were counted each of them is there. And it is the opcode
that runs: it asks the same questions and ends in the same way. -/
theorem multisig_faultless (c : Context) (verifying : Option FailureKind) (s : State) :
    (∀ fault, (Bytewise.checkMultisig c verifying s).run.result ≠ .ok (.error fault)) ∧
    Bytewise.checkMultisig c verifying s = liftM (checkMultisig c verifying s) := by
  have hagrees : Bytewise.Agrees id (Bytewise.checkMultisig c verifying s)
      (checkMultisig c verifying s) := by
    unfold Bytewise.checkMultisig checkMultisig
    refine .bind (Bytewise.agrees_readKeyCount c s) fun (keyCount, s) _ => ?_
    refine .bind (Bytewise.agrees_readLayout c s.stack keyCount) fun p hp => ?_
    have hsound : p.Sound s.stack := Bytewise.Counters.sound_of_readLayout hp
    rw [Bytewise.deleteSignatures_eq hsound, pure_bind]
    refine .bind (.of_eq (Bytewise.matchPairs_eq hsound)) fun answer _ => ?_
    refine .bind (.of_eq (Bytewise.dropOperands_eq hsound)) fun below _ => ?_
    refine .of_eq ?_
    dsimp only [id, Prod.map]
    cases conclude verifying answer below with
    | error e => rfl
    | ok stack => rfl
  exact ⟨hagrees.faultless, hagrees.eq⟩

end SpendScript.Execute
