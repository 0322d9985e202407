import SpendScript.Execute
import SpendScript.Proofs.Session
/-!
# The operands of a check of several signatures

The stack says how many keys and how many signatures there are, and a check of several signatures
reads both counts before it asks anything. This file says once what it has found when the reading
succeeds.

What this file fixes:

* `Execute.operandCount`, `Execute.multisigSignatures` -- the counts and the signatures, read off
  the stack alone.
* `Execute.readKeyCount_ok`, `Execute.readLayout_ok` -- where the operands lie when the reading
  succeeds; `Execute.readKeyCount_of_number`, `Execute.readLayout_of_number` -- that it succeeds
  where they are all there.
* `Execute.mem_asked_pairUp`, `Execute.countP_asked_pairUp` -- the pairs that are tried hold one of
  the signatures each, and there are no more of them than keys.
-/

namespace SpendScript.Execute

variable {c : Context} {s : State}

/-! ## 1. Counts on the stack -/

/-- The count that an element stands for, and zero if it is no number that can be read. -/
def operandCount (c : Context) (element : Option Bytes) : Nat :=
  match element.map c.number with
  | some (.ok n) => n.toNat
  | _ => 0

/-- The signatures of a check of several: below the count of keys lie the keys, below these the
count of signatures, and below this the signatures. -/
def multisigSignatures (c : Context) (stack : Stack Bytes) : List Bytes :=
  let keyCount := operandCount c stack[0]?
  let sigCount := operandCount c stack[keyCount + 1]?
  (stack.drop (keyCount + 2)).take sigCount

/-- What is read as a number decodes under the limit and the rule in force. -/
theorem decode_of_number {element : Bytes} {n : Int} (h : c.number element = .ok n) :
    ScriptNumber.decode element c.flags.minimalData c.limits.maxNumSize = .ok n := by
  unfold Context.number at h
  cases hdecode : ScriptNumber.decode element c.flags.minimalData c.limits.maxNumSize with
  | error e => rw [hdecode] at h; cases h
  | ok v => rw [hdecode] at h; cases h; rfl

theorem number_of_decode {element : Bytes} {n : Int}
    (h : ScriptNumber.decode element c.flags.minimalData c.limits.maxNumSize = .ok n) :
    c.number element = .ok n := by
  unfold Context.number
  rw [h]
  rfl

theorem operandCount_of_number {element : Bytes} {n : Int} (h : c.number element = .ok n) :
    operandCount c (some element) = n.toNat := by
  unfold operandCount
  rw [Option.map_some, h]

/-- A count that was read is the count that the element stands for. -/
theorem readCount_ok {kind : FailureKind} {limit n : Nat} {element : Bytes}
    (h : readCount c kind limit element = .ok n) :
    operandCount c (some element) = n ∧ n ≤ limit := by
  obtain ⟨v, hv, hcheck⟩ := eq_ok_of_bind h
  split at hcheck
  · next hbound =>
    cases hcheck
    exact ⟨operandCount_of_number hv, Int.toNat_le.mpr hbound.2⟩
  · cases hcheck

theorem peek_checkLen_ok {needed : Nat} {stack : Stack Bytes} {u : Unit}
    (h : peek (Stack.checkLen needed) stack = .ok u) : needed ≤ stack.length := by
  refine Nat.not_lt.mp fun hshort => ?_
  unfold peek at h
  rw [Stack.checkLen_of_lt hshort] at h
  cases h

theorem elementAt_ok {stack : Stack Bytes} {position : Nat} {x : Bytes}
    (h : elementAt stack position = .ok x) : stack[position - 1]? = some x := by
  unfold elementAt peek Stack.get at h
  cases hx : stack[position - 1]? with
  | none => rw [hx] at h; cases h
  | some y => rw [hx] at h; cases h; rfl

theorem addCounter_ok {kind : FailureKind} {a b n : Nat} (h : addCounter kind a b = .ok n) :
    n = a + b := by
  unfold addCounter at h
  split at h
  · cases h; rfl
  · cases h

/-- A count within its limit is read. -/
theorem readCount_of_number {kind : FailureKind} {limit n : Nat} {element : Bytes}
    (h : c.number element = .ok (n : Int)) (hle : n ≤ limit) :
    readCount c kind limit element = .ok n := by
  have hbound : (0 : Int) ≤ n ∧ (n : Int) ≤ limit := ⟨Int.natCast_nonneg n, Int.ofNat_le.mpr hle⟩
  unfold readCount
  rw [h]
  exact if_pos hbound

theorem peek_checkLen_of_le {needed : Nat} {stack : Stack Bytes} (h : needed ≤ stack.length) :
    peek (Stack.checkLen needed) stack = .ok () := by
  unfold peek
  rw [Stack.checkLen_of_le h]

theorem elementAt_of_getElem? {stack : Stack Bytes} {position : Nat} {x : Bytes}
    (h : stack[position - 1]? = some x) : elementAt stack position = .ok x := by
  unfold elementAt peek Stack.get
  rw [h]

theorem addCounter_of_le {kind : FailureKind} {a b : Nat} (h : a + b ≤ 255) :
    addCounter kind a b = .ok (a + b) := if_pos h

/-! ## 2. The layout -/

/-- The keys that were found are counted as operations, within both limits. -/
theorem readKeyCount_ok {keyCount : Nat} {s' : State}
    (h : readKeyCount c s = .ok (keyCount, s')) :
    operandCount c s.stack[0]? = keyCount ∧ keyCount ≤ c.limits.maxPubKeyCount.toNat ∧
      s.opCount + keyCount ≤ c.limits.maxOpCount ∧
      s' = { s with opCount := s.opCount + keyCount } := by
  obtain ⟨_, _, h⟩ := eq_ok_of_bind h
  obtain ⟨top, htop, h⟩ := eq_ok_of_bind h
  obtain ⟨n, hn, h⟩ := eq_ok_of_bind h
  obtain ⟨hcount, hlimit⟩ := readCount_ok hn
  dsimp only at h
  split at h
  · cases h
  · next hops =>
    cases h
    rw [elementAt_ok htop]
    exact ⟨hcount, hlimit, Nat.not_lt.mp hops, rfl⟩

/-- **The layout that was found**: below the count of keys the keys, the count of signatures, and
the signatures, and all of them are there with the spare element. -/
theorem readLayout_ok {stack : Stack Bytes} {keyCount : Nat} {l : MultisigLayout}
    (h : readLayout c stack keyCount = .ok l) :
    ∃ sigCount, operandCount c stack[keyCount + 1]? = sigCount ∧ sigCount ≤ keyCount ∧
      l = ⟨keyCount, sigCount, 2, keyCount + 3, keyCount + 3 + sigCount⟩ ∧
      keyCount + 3 + sigCount ≤ stack.length := by
  obtain ⟨sigCountAt, hat, h⟩ := eq_ok_of_bind h
  obtain ⟨_, _, h⟩ := eq_ok_of_bind h
  obtain ⟨element, helement, h⟩ := eq_ok_of_bind h
  obtain ⟨sigCount, hsigs, h⟩ := eq_ok_of_bind h
  obtain ⟨firstSig, hfirst, h⟩ := eq_ok_of_bind h
  obtain ⟨size, hsize, h⟩ := eq_ok_of_bind h
  obtain ⟨_, hlength, h⟩ := eq_ok_of_bind h
  cases h
  obtain ⟨hcount, hle⟩ := readCount_ok hsigs
  have hat' : sigCountAt = keyCount + 2 := (addCounter_ok hat).trans (Nat.add_comm 2 keyCount)
  have hfirst' : firstSig = keyCount + 3 := by rw [addCounter_ok hfirst, hat']
  have hsize' : size = keyCount + 3 + sigCount := by rw [addCounter_ok hsize, hfirst']
  have hindex : stack[keyCount + 1]? = some element := by
    have h := elementAt_ok helement
    rwa [hat'] at h
  refine ⟨sigCount, by rw [hindex]; exact hcount, hle, by rw [hfirst', hsize'], ?_⟩
  have hdeep := peek_checkLen_ok hlength
  rwa [hsize'] at hdeep

/-- **A count of keys within both limits is found.** -/
theorem readKeyCount_of_number {top : Bytes} {below : Stack Bytes} {keyCount : Nat}
    (hstack : s.stack = top :: below) (htop : c.number top = .ok (keyCount : Int))
    (hkeys : keyCount ≤ c.limits.maxPubKeyCount.toNat)
    (hops : s.opCount + keyCount ≤ c.limits.maxOpCount) :
    readKeyCount c s = .ok (keyCount, { s with opCount := s.opCount + keyCount }) := by
  have hget : s.stack[1 - 1]? = some top := by rw [hstack]; rfl
  unfold readKeyCount
  rw [peek_checkLen_of_le (by rw [hstack]; exact Nat.le_add_left 1 _), elementAt_of_getElem? hget]
  show readCount c _ _ top >>= _ = _
  rw [readCount_of_number htop hkeys]
  exact if_neg (Nat.not_lt.mpr hops)

/-- **A layout is found** where all operands are there and the counters stay within a byte. -/
theorem readLayout_of_number {stack : Stack Bytes} {keyCount sigCount : Nat} {element : Bytes}
    (hget : stack[keyCount + 1]? = some element)
    (hsigs : c.number element = .ok (sigCount : Int)) (hle : sigCount ≤ keyCount)
    (hsize : keyCount + 3 + sigCount ≤ 255) (hdeep : keyCount + 3 + sigCount ≤ stack.length) :
    readLayout c stack keyCount =
      .ok ⟨keyCount, sigCount, 2, keyCount + 3, keyCount + 3 + sigCount⟩ := by
  have hat : 2 + keyCount = keyCount + 2 := Nat.add_comm 2 keyCount
  unfold readLayout
  dsimp only
  rw [addCounter_of_le (by omega), hat]
  show peek (Stack.checkLen (keyCount + 2)) stack >>= _ = _
  rw [peek_checkLen_of_le (by omega)]
  show elementAt stack (keyCount + 2) >>= _ = _
  rw [elementAt_of_getElem? hget]
  show readCount c _ _ element >>= _ = _
  rw [readCount_of_number hsigs hle]
  show addCounter _ (keyCount + 2) 1 >>= _ = _
  rw [addCounter_of_le (by omega)]
  show addCounter _ (keyCount + 3) sigCount >>= _ = _
  rw [addCounter_of_le hsize]
  show peek (Stack.checkLen (keyCount + 3 + sigCount)) stack >>= _ = _
  rw [peek_checkLen_of_le hdeep]
  rfl

/-- The signatures of the layout that was found are those that the stack alone tells. -/
theorem signatures_eq {stack : Stack Bytes} {keyCount : Nat} {l : MultisigLayout}
    (hkeys : operandCount c stack[0]? = keyCount) (h : readLayout c stack keyCount = .ok l) :
    l.signatures stack = multisigSignatures c stack := by
  obtain ⟨sigCount, hsigs, _, rfl, _⟩ := readLayout_ok h
  unfold multisigSignatures
  dsimp only
  rw [hkeys, hsigs]
  rfl

/-! ## 3. Pairing -/

/-- **The pairs that are tried** hold one of the signatures that were left each, by induction on
the keys that are left. -/
theorem mem_asked_pairUp {ask : Pairing → Run Bool} {q : Query} {keysLeft : Nat} {p : Pairing}
    (h : q ∈ (pairUp ask keysLeft p).asked) :
    ∃ tried : Pairing, q ∈ (ask tried).asked ∧ p.sigAt ≤ tried.sigAt ∧
      tried.sigAt < p.sigAt + p.sigsLeft := by
  induction keysLeft generalizing p with
  | zero =>
    unfold pairUp at h
    split at h <;> cases h
  | succ keysLeft ih =>
    unfold pairUp at h
    split at h
    · cases h
    next hleft =>
    rcases Run.mem_asked_bind h with h | ⟨fits, _, h⟩
    · exact ⟨p, h, Nat.le_refl _, by omega⟩
    · dsimp only at h
      split at h
      · cases h
      obtain ⟨tried, hasked, hlow, hhigh⟩ := ih h
      refine ⟨tried, hasked, ?_⟩
      unfold Pairing.advance at hlow hhigh
      split at hlow
      · rw [if_pos ‹_›] at hhigh
        dsimp only at hlow hhigh
        omega
      · rw [if_neg ‹_›] at hhigh
        exact ⟨hlow, hhigh⟩

/-- **No more pairs are tried than there are keys.** -/
theorem countP_asked_pairUp {ask : Pairing → Run Bool} {test : Query → Bool}
    (hask : ∀ p, (ask p).asked.countP test ≤ 1) (keysLeft : Nat) (p : Pairing) :
    (pairUp ask keysLeft p).asked.countP test ≤ keysLeft := by
  induction keysLeft generalizing p with
  | zero =>
    unfold pairUp
    split <;> exact Nat.le_refl 0
  | succ keysLeft ih =>
    unfold pairUp
    split
    · exact Nat.zero_le _
    refine Nat.le_trans (Run.countP_asked_bind (n := keysLeft) (hask p) fun fits _ => ?_)
      (Nat.le_of_eq (Nat.add_comm 1 keysLeft))
    dsimp only
    split
    · exact Nat.zero_le _
    · exact ih _

end SpendScript.Execute
