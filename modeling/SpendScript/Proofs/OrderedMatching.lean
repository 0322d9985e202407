import Mathlib.Data.List.Forall2
import SpendScript.Proofs.SignedCode
import SpendScript.Proofs.Vetting
/-!
# A check of several signatures finds a matching

The loop over signatures and keys is greedy: a key is spent on the signature that is due whether or
not a later signature will want it, and the loop gives up as soon as too few keys are left. It also
walks both lists from the top of the stack down, by positions. This file says that it decides the
question that a reader would ask: can the signatures be assigned to keys in the same order, so that
each of them fits its key?

What this file fixes:

* `FitInOrder` -- that there is such an assignment; `FitInOrder.reverse_iff`, that it does not
  matter from which end the lists are read.
* `fitInOrder_cons_iff` -- a key that fits the signature that is due may be spent on it.
* `greedy_iff` -- going through the keys once decides the question.
* `Execute.result_pairUp` -- the loop by positions does that.
* `Execute.MultisigOperands` -- the operands of the opcode, and when it accepts them.
* `Execute.result_checkMultisig` -- what the opcode makes of operands that it accepts.
* `Interpreter.checkMultisig_matching` -- both forms of the opcode as a chunk of a script.
-/

namespace SpendScript

variable {μ : Type}

/-! ## 1. Assignments in order -/

/-- **There is an assignment of signatures to keys in order**: a position for each signature, each
position beyond the one before, at which a key stands that the signature fits. -/
def FitInOrder (fits : Bytes → Bytes → Bool) (sigs keys : List Bytes) : Prop :=
  ∃ positions : List (Fin keys.length), positions.Pairwise (· < ·) ∧
    List.Forall₂ (fun sig position => fits sig keys[position]) sigs positions

variable {fits : Bytes → Bytes → Bool}

/-- The keys at increasing positions are what is left when the other keys are taken out. -/
theorem fitInOrder_iff_sublist {sigs keys : List Bytes} :
    FitInOrder fits sigs keys ↔ List.SublistForall₂ (fun sig key => fits sig key) sigs keys := by
  rw [List.sublistForall₂_iff]
  constructor
  · rintro ⟨positions, hincreasing, hfits⟩
    exact ⟨positions.map (keys[·]), List.forall₂_map_right_iff.mpr hfits,
      List.map_getElem_sublist hincreasing⟩
  · rintro ⟨chosen, hfits, hsublist⟩
    obtain ⟨positions, rfl, hincreasing⟩ := List.sublist_eq_map_getElem hsublist
    exact ⟨positions, hincreasing, List.forall₂_map_right_iff.mp hfits⟩

namespace FitInOrder

/-- An assignment needs a key for each signature. -/
theorem length_le {sigs keys : List Bytes} (h : FitInOrder fits sigs keys) :
    sigs.length ≤ keys.length := by
  obtain ⟨chosen, hfits, hsublist⟩ := List.sublistForall₂_iff.mp (fitInOrder_iff_sublist.mp h)
  exact hfits.length_eq ▸ hsublist.length_le

/-- **Read from the other end**, an assignment in order is an assignment in order. -/
theorem reverse_iff {sigs keys : List Bytes} :
    FitInOrder fits sigs.reverse keys.reverse ↔ FitInOrder fits sigs keys := by
  have hreverse : ∀ sigs keys : List Bytes, FitInOrder fits sigs keys →
      FitInOrder fits sigs.reverse keys.reverse := by
    intro sigs keys h
    obtain ⟨chosen, hfits, hsublist⟩ := List.sublistForall₂_iff.mp (fitInOrder_iff_sublist.mp h)
    exact fitInOrder_iff_sublist.mpr (List.sublistForall₂_iff.mpr
      ⟨chosen.reverse, List.forall₂_reverse_iff.mpr hfits, hsublist.reverse⟩)
  refine ⟨fun h => ?_, hreverse sigs keys⟩
  have htwice := hreverse _ _ h
  rwa [List.reverse_reverse, List.reverse_reverse] at htwice

end FitInOrder

/-- No signature is always assigned. -/
theorem fitInOrder_nil (keys : List Bytes) : FitInOrder fits [] keys := ⟨[], .nil, .nil⟩

/-- **What may be done with the first key.** If it fits the signature that is due, spending it there
loses nothing: an assignment that passes it over, or that uses it, leaves all later signatures with
later keys. If it does not fit, it is of no use. -/
theorem fitInOrder_cons_iff {sig key : Bytes} {sigs keys : List Bytes} :
    FitInOrder fits (sig :: sigs) (key :: keys) ↔
      if fits sig key then FitInOrder fits sigs keys else FitInOrder fits (sig :: sigs) keys := by
  simp only [fitInOrder_iff_sublist]
  split
  · next hfit =>
    refine ⟨fun h => ?_, .cons hfit⟩
    cases h with
    | cons _ hothers => exact hothers
    | cons_right hpassed =>
      -- the signature that is due fits one of the other keys, and that key is given back
      obtain ⟨chosen, hfits, hsublist⟩ := List.sublistForall₂_iff.mp hpassed
      cases hfits with
      | cons _ hothers =>
        exact List.sublistForall₂_iff.mpr ⟨_, hothers, (List.sublist_cons_self _ _).trans hsublist⟩
  · next hfit =>
    refine ⟨fun h => ?_, .cons_right⟩
    cases h with
    | cons hfit' _ => exact absurd hfit' hfit
    | cons_right hothers => exact hothers

/-! ## 2. Going through the keys once -/

/-- Spends each key on the signature that is due, if it fits. -/
def greedy (fits : Bytes → Bytes → Bool) : (sigs keys : List Bytes) → Bool
  | [], _ => true
  | _ :: _, [] => false
  | sig :: sigs, key :: keys =>
    if fits sig key then greedy fits sigs keys else greedy fits (sig :: sigs) keys

/-- **Going through the keys once decides whether there is an assignment**, by induction on the
keys. -/
theorem greedy_iff {sigs keys : List Bytes} : greedy fits sigs keys ↔ FitInOrder fits sigs keys := by
  induction keys generalizing sigs with
  | nil =>
    cases sigs with
    | nil => exact ⟨fun _ => fitInOrder_nil [], fun _ => rfl⟩
    | cons sig sigs => exact ⟨nofun, fun h => absurd h.length_le (Nat.not_succ_le_zero _)⟩
  | cons key keys ih =>
    cases sigs with
    | nil => exact ⟨fun _ => fitInOrder_nil _, fun _ => rfl⟩
    | cons sig sigs =>
      rw [fitInOrder_cons_iff, greedy]
      split
      · exact ih
      · exact ih

instance (fits : Bytes → Bytes → Bool) (sigs keys : List Bytes) :
    Decidable (FitInOrder fits sigs keys) := decidable_of_iff _ greedy_iff

theorem greedy_eq_decide (sigs keys : List Bytes) :
    greedy fits sigs keys = decide (FitInOrder fits sigs keys) := by
  rw [Bool.eq_iff_iff, greedy_iff, decide_eq_true_iff]

/-- With more signatures than keys there is nothing to look for, and giving up at once is right. -/
theorem greedy_of_length_lt {sigs keys : List Bytes} (h : keys.length < sigs.length) :
    greedy fits sigs keys = false :=
  Bool.eq_false_iff.mpr fun hgreedy => Nat.not_le.mpr h (greedy_iff.mp hgreedy).length_le

/-- The signatures that are left after a key. -/
theorem greedy_cons (sig key : Bytes) (sigs keys : List Bytes) :
    greedy fits (sig :: sigs) (key :: keys) =
      greedy fits (if fits sig key then sigs else sig :: sigs) keys := by
  rw [greedy]
  split <;> rfl

namespace Execute

variable {c : Context} {s : State}

/-- **What the loop relies on**: as many signatures are left as it counts, and from the positions
that are due on, every question about one of the signatures and one of the keys is answered. -/
structure Answered (ask : Pairing → Run Bool) (fits : Bytes → Bytes → Bool)
    (sigs keys : List Bytes) (p : Pairing) : Prop where
  sigsLeft : p.sigsLeft = sigs.length
  answer : ∀ j k left sig key, sigs[j]? = some sig → keys[k]? = some key →
    (ask ⟨p.sigAt + j, p.keyAt + k, left⟩).result = .ok (fits sig key)

/-- One key further, what is left starts at the next positions. -/
theorem Answered.advance {ask : Pairing → Run Bool} {sig key : Bytes} {sigs keys : List Bytes}
    {p : Pairing} (h : Answered ask fits (sig :: sigs) (key :: keys) p) :
    Answered ask fits (if fits sig key then sigs else sig :: sigs) keys
      (p.advance (fits sig key)) := by
  unfold Pairing.advance
  split
  · refine ⟨by rw [h.sigsLeft]; rfl, fun j k left sig' key' hsig hkey => ?_⟩
    dsimp only
    rw [Nat.add_assoc, Nat.add_assoc, Nat.add_comm 1, Nat.add_comm 1]
    exact h.answer (j + 1) (k + 1) left sig' key' hsig hkey
  · refine ⟨h.sigsLeft, fun j k left sig' key' hsig hkey => ?_⟩
    dsimp only
    rw [Nat.add_assoc, Nat.add_comm 1]
    exact h.answer j (k + 1) left sig' key' hsig hkey

/-- **The loop by positions goes through the keys once**, by induction on the keys. -/
theorem result_pairUp {ask : Pairing → Run Bool} {sigs keys : List Bytes} {p : Pairing}
    (h : Answered ask fits sigs keys p) :
    (pairUp ask keys.length p).result = .ok (greedy fits sigs keys) := by
  induction keys generalizing sigs p with
  | nil =>
    unfold pairUp
    rw [h.sigsLeft]
    cases sigs <;> rfl
  | cons key keys ih =>
    unfold pairUp
    rw [h.sigsLeft]
    cases sigs with
    | nil => rfl
    | cons sig sigs =>
      have hfirst : (ask p).result = .ok (fits sig key) := h.answer 0 0 p.sigsLeft sig key rfl rfl
      rw [List.length_cons, if_neg (Nat.succ_ne_zero _), List.length_cons]
      dsimp only
      rw [Run.result_bind, hfirst, greedy_cons]
      show (if keys.length < (p.advance (fits sig key)).sigsLeft then (pure false : Run Bool)
        else pairUp ask keys.length (p.advance (fits sig key))).result = _
      split
      · next hfew =>
        rw [h.advance.sigsLeft] at hfew
        rw [greedy_of_length_lt hfew]
        rfl
      · exact ih h.advance

/-! ## 3. The operands -/

/-- The operands of a check of several signatures, and what lies below them; signatures, keys and
what lies below are listed bottom first. -/
structure MultisigOperands where
  rest : List Bytes
  spare : Bytes
  sigs : List Bytes
  sigCount : Bytes
  keys : List Bytes
  keyCount : Bytes

namespace MultisigOperands

/-- The stack on which they lie. -/
def stack (o : MultisigOperands) : Stack Bytes :=
  .ofBottomFirst (o.rest ++ [o.spare] ++ o.sigs ++ [o.sigCount] ++ o.keys ++ [o.keyCount])

/-- **Operands that are accepted**: the counts say how many signatures and keys there are, there are
no more signatures than keys and no more keys than allowed, all of them can be counted in a byte,
the rules on encodings let them pass, and the spare element is empty if that is asked for. -/
structure Accepted (c : Context) (o : MultisigOperands) : Prop where
  sigCount : c.number o.sigCount = .ok (o.sigs.length : Int)
  keyCount : c.number o.keyCount = .ok (o.keys.length : Int)
  sigs_le : o.sigs.length ≤ o.keys.length
  keys_le : o.keys.length ≤ c.limits.maxPubKeyCount.toNat
  counters : o.sigs.length + o.keys.length + 3 ≤ 255
  vetted : ∀ sig ∈ o.sigs, ∀ key ∈ o.keys, Vetted c.reader c.flags sig key
  spare : c.flags.nullDummy → o.spare = []

/-- Where they lie. -/
def layout (o : MultisigOperands) : MultisigLayout :=
  ⟨o.keys.length, o.sigs.length, 2, o.keys.length + 3, o.keys.length + 3 + o.sigs.length⟩

variable {o : MultisigOperands}

/-- The stack from the top. -/
theorem stack_eq : o.stack = o.keyCount :: (o.keys.reverse ++
    o.sigCount :: (o.sigs.reverse ++ o.spare :: o.rest.reverse)) := by
  unfold stack Stack.ofBottomFirst
  simp

theorem drop_keys : o.stack.drop (o.keys.length + 1) =
    o.sigCount :: (o.sigs.reverse ++ o.spare :: o.rest.reverse) := by
  rw [stack_eq, List.drop_succ_cons, List.drop_left' List.length_reverse]

theorem drop_sigCount : o.stack.drop (o.keys.length + 2) =
    o.sigs.reverse ++ o.spare :: o.rest.reverse := by
  rw [← Nat.add_assoc o.keys.length 1 1, ← List.drop_drop, drop_keys]
  rfl

theorem drop_sigs : o.stack.drop (o.keys.length + 2 + o.sigs.length) =
    o.spare :: o.rest.reverse := by
  rw [← List.drop_drop, drop_sigCount, List.drop_left' List.length_reverse]

theorem length_stack : o.stack.length = o.rest.length + o.sigs.length + o.keys.length + 3 := by
  rw [stack_eq]
  simp only [List.length_cons, List.length_append, List.length_reverse]
  omega

theorem getElem?_sigCount : o.stack[o.keys.length + 1]? = some o.sigCount := by
  have hdrop : (o.stack.drop (o.keys.length + 1))[0]? = some o.sigCount := by rw [drop_keys]; rfl
  rwa [List.getElem?_drop] at hdrop

theorem elementAt_sig {j : Nat} {sig : Bytes} (h : o.sigs.reverse[j]? = some sig) :
    elementAt o.stack (o.keys.length + 3 + j) = .ok sig := by
  refine elementAt_of_getElem? ?_
  have hindex : o.keys.length + 3 + j - 1 = o.keys.length + 2 + j := by omega
  rw [hindex, ← List.getElem?_drop, drop_sigCount,
    List.getElem?_append_left (List.getElem?_eq_some_iff.mp h).1, h]

theorem elementAt_key {k : Nat} {key : Bytes} (h : o.keys.reverse[k]? = some key) :
    elementAt o.stack (2 + k) = .ok key := by
  refine elementAt_of_getElem? ?_
  have hindex : 2 + k - 1 = k + 1 := by omega
  rw [hindex, stack_eq, List.getElem?_cons_succ,
    List.getElem?_append_left (List.getElem?_eq_some_iff.mp h).1, h]

theorem signatures_layout : o.layout.signatures o.stack = o.sigs.reverse := by
  show (o.stack.drop (o.keys.length + 2)).take o.sigs.length = _
  rw [drop_sigCount, List.take_left' List.length_reverse]

theorem readLayout_eq (h : o.Accepted c) : readLayout c o.stack o.keys.length = .ok o.layout := by
  have hcounters := h.counters
  refine readLayout_of_number getElem?_sigCount h.sigCount h.sigs_le (by omega) ?_
  rw [length_stack]
  omega

theorem dropOperands_layout (h : o.Accepted c) :
    dropOperands c o.layout o.stack = .ok (.ofBottomFirst o.rest) := by
  have hsize : o.layout.size - 1 = o.keys.length + 2 + o.sigs.length := by
    show o.keys.length + 3 + o.sigs.length - 1 = _
    omega
  unfold dropOperands
  rw [hsize, drop_sigs, Stack.pop_cons]
  dsimp only
  cases hrule : c.flags.nullDummy with
  | false => rfl
  | true => rw [h.spare hrule]; rfl

end MultisigOperands

/-! ## 4. The opcode -/

/-- A question about a vetted signature and a vetted key gets the checker's answer. -/
theorem result_askPair {stack : Stack Bytes} {code sig key : Bytes} {p : Pairing}
    (hsig : elementAt stack p.sigAt = .ok sig) (hkey : elementAt stack p.keyAt = .ok key)
    (hvetted : Vetted c.reader c.flags sig key) :
    (askPair c stack code p).result = .ok (c.checker.signature sig key code) := by
  unfold askPair askVetted
  rw [hsig, hkey]
  show (Run.ofExcept (vet c.reader c.flags sig key) >>= fun _ =>
    Run.askSignature c.checker sig key code).result = _
  rw [vet_eq_ok_iff.mpr hvetted]
  rfl

variable {o : MultisigOperands}

theorem answered_askPair (ho : o.Accepted c) (code : Bytes) :
    Answered (askPair c o.stack code) (c.checker.signature · · code) o.sigs.reverse
      o.keys.reverse ⟨o.layout.firstSig, o.layout.firstKey, o.layout.sigCount⟩ := by
  refine ⟨List.length_reverse.symm, fun j k left sig key hsig hkey => ?_⟩
  refine result_askPair (MultisigOperands.elementAt_sig hsig)
    (MultisigOperands.elementAt_key hkey) (ho.vetted sig ?_ key ?_)
  · exact List.mem_reverse.mp (List.mem_of_getElem? hsig)
  · exact List.mem_reverse.mp (List.mem_of_getElem? hkey)

/-- The loop starts at the top of either list and finds what a reader would find from the
bottom. -/
theorem result_pairUp_operands (ho : o.Accepted c) (code : Bytes) :
    (pairUp (askPair c o.stack code) o.layout.keyCount
      ⟨o.layout.firstSig, o.layout.firstKey, o.layout.sigCount⟩).result
      = .ok (decide (FitInOrder (c.checker.signature · · code) o.sigs o.keys)) := by
  have hpairs := result_pairUp (answered_askPair ho code)
  rw [List.length_reverse, greedy_eq_decide, decide_eq_decide.mpr FitInOrder.reverse_iff] at hpairs
  exact hpairs

/-- **The opcode on accepted operands** answers whether the signatures fit keys in order, and
replaces the operands by the answer or fails at a no. -/
theorem result_checkMultisig (ho : o.Accepted c) (hstack : s.stack = o.stack)
    (hops : s.opCount + o.keys.length ≤ c.limits.maxOpCount) (verifying : Option FailureKind)
    {code : Bytes} (hcode : code = ((c.script.subscript s.beginCode).without o.sigs).encode) :
    (checkMultisig c verifying s).result =
      (conclude verifying (FitInOrder (c.checker.signature · · code) o.sigs o.keys)
        (.ofBottomFirst o.rest)).map fun stack =>
          { s with stack, opCount := s.opCount + o.keys.length } := by
  have hkeys := readKeyCount_of_number (hstack.trans MultisigOperands.stack_eq) ho.keyCount
    ho.keys_le hops
  have hcode' : scriptCode c { s with opCount := s.opCount + o.keys.length }
      (o.layout.signatures o.stack) = code := by
    rw [scriptCode_eq, MultisigOperands.signatures_layout, Program.without_reverse, hcode]
    rfl
  unfold checkMultisig
  rw [Run.result_bind]
  show readKeyCount c s >>= _ = _
  rw [hkeys]
  show (Run.ofExcept (readLayout c s.stack o.keys.length) >>= _ : Run State).result = _
  rw [hstack, MultisigOperands.readLayout_eq ho]
  show (pairUp (askPair c o.stack (scriptCode c { s with opCount := s.opCount + o.keys.length }
    (o.layout.signatures o.stack))) o.layout.keyCount _ >>= _ : Run State).result = _
  rw [hcode', Run.result_bind, result_pairUp_operands ho]
  show (Run.ofExcept (dropOperands c o.layout o.stack) >>= _ : Run State).result = _
  rw [MultisigOperands.dropOperands_layout ho]
  show (Run.ofExcept (conclude verifying _ (.ofBottomFirst o.rest)) >>= _ : Run State).result = _
  cases conclude verifying (FitInOrder (c.checker.signature · · code) o.sigs o.keys)
    (.ofBottomFirst o.rest) <;> rfl

/-- The verifying form of an opcode leaves nothing and fails at a no. -/
theorem conclude_some (kind : FailureKind) (p : Prop) [Decidable p] (stack : Stack Bytes) :
    conclude (some kind) p stack = if p then .ok stack else .error (.plain kind) := by
  unfold conclude
  simp only [decide_eq_true_eq]

end Execute

/-- **One form of the opcode as a chunk of a script.** The operands are at least three elements, and
one takes their place at most, so that the limit on the stacks is kept. -/
theorem BuiltIn.result_step_checkMultisig {c : Context} {s : State} {position : Nat}
    {o : Execute.MultisigOperands} (ho : o.Accepted c) (hstack : s.stack = o.stack)
    (hactive : s.isActive) (hops : s.opCount + 1 + o.keys.length ≤ c.limits.maxOpCount)
    (hdepth : s.depth ≤ c.limits.maxStackSize) {op : Operation} {verifying : Option FailureKind}
    (hop : ∀ s, Execute.operation c position s op = Execute.checkMultisig c verifying s)
    {code : Bytes} (hcode : code = ((c.script.subscript s.beginCode).without o.sigs).encode) :
    (step c position (.operation op) s).result =
      (Execute.conclude verifying (FitInOrder (c.checker.signature · · code) o.sigs o.keys)
        (.ofBottomFirst o.rest)).map fun stack =>
          { s with stack, opCount := s.opCount + 1 + o.keys.length } := by
  refine result_step_operation hactive (Nat.le_of_add_right_le hops) ?_ ?_
  · rw [hop]
    exact Execute.result_checkMultisig (s := { s with opCount := s.opCount + 1 }) ho hstack hops
      verifying hcode
  · intro s' h
    obtain ⟨stack, hstack', rfl⟩ := map_eq_ok_iff.mp h
    refine Nat.le_trans (Nat.add_le_add_right ?_ s.alt.length) hdepth
    rw [hstack, Execute.MultisigOperands.length_stack]
    rcases Execute.conclude_ok hstack' with rfl | rfl
    · rw [Stack.length_ofBottomFirst]
      omega
    · rw [List.length_cons, Stack.length_ofBottomFirst]
      omega

/-- **A check of several signatures finds a matching in order if there is one.** Without extensions,
whatever the checker, on operands that are accepted and with room among the operations for the
opcode and the keys: the opcode succeeds, counts the keys, and replaces the operands by the answer
whether the signatures can be assigned to keys in the same order so that each fits its key, for the
script from the last separator on without the pushes of these signatures. Its verifying form leaves
nothing and fails at a no. -/
theorem Interpreter.checkMultisig_matching (i : Interpreter μ) (hext : i.extensions = [])
    (script : Program) (flags : Flags) (position : Nat) (o : Execute.MultisigOperands)
    (ho : o.Accepted (i.context script flags)) (s : State) (hstack : s.stack = o.stack)
    (hactive : s.isActive) (hops : s.opCount + 1 + o.keys.length ≤ i.limits.maxOpCount)
    (hdepth : s.depth ≤ i.limits.maxStackSize) (m : μ) :
    let c := i.context script flags
    let code := ((script.subscript s.beginCode).without o.sigs).encode
    let fits := fun sig key => i.checker.signature sig key code
    let left := fun elements : List Bytes =>
      { s with stack := .ofBottomFirst (o.rest ++ elements),
               opCount := s.opCount + 1 + o.keys.length }
    (i.step c position (.operation .checkMultisig) s).outcome m
      = .ok (left [ofBool (FitInOrder fits o.sigs o.keys)]) ∧
    (i.step c position (.operation .checkMultisigVerify) s).outcome m
      = if FitInOrder fits o.sigs o.keys then .ok (left [])
        else .error (.plain .checkMultisigVerify) := by
  intro c code fits left
  have hleft : ∀ elements, Stack.ofBottomFirst (o.rest ++ elements)
      = elements.reverse ++ .ofBottomFirst o.rest := Stack.ofBottomFirst_append _
  have hcode : code = ((c.script.subscript s.beginCode).without o.sigs).encode := rfl
  constructor
  · rw [outcome_step hext rfl, BuiltIn.result_step_checkMultisig ho hstack hactive hops hdepth
      (fun _ => rfl) hcode]
    dsimp only [left]
    rw [hleft]
    rfl
  · rw [outcome_step hext rfl, BuiltIn.result_step_checkMultisig ho hstack hactive hops hdepth
      (fun _ => rfl) hcode, Execute.conclude_some]
    dsimp only [left]
    rw [hleft]
    show (if FitInOrder fits o.sigs o.keys then _ else _ : Except Failure _).map _ = _
    split <;> rfl

namespace OrderedMatching

/-- Each of three signatures fits a key of its own. -/
def checker : Checker :=
  .table [(some [1], some [11]), (some [2], some [12]), (some [3], some [13])] 0

def interpreter : Interpreter Unit := { Interpreter.plain with checker }

/-- Two signatures and three keys, over an element that stays. -/
def operands (first second : Bytes) : Execute.MultisigOperands :=
  ⟨[[7]], [], [first, second], [2], [[11], [12], [13]], [3]⟩

theorem accepted_operands (first second : Bytes) :
    (operands first second).Accepted (interpreter.context [] .empty) where
  sigCount := rfl
  keyCount := rfl
  sigs_le := Nat.le_succ 2
  keys_le := show 3 ≤ 20 by decide
  counters := show 2 + 3 + 3 ≤ 255 by decide
  vetted := fun _ _ _ _ => ⟨fun h => absurd h (by decide), nofun, nofun, nofun⟩
  spare := nofun

end OrderedMatching

open OrderedMatching in
/-- The first and the third signature fit in this order, with a key between them that neither of
them fits, and do not fit in the other order. -/
theorem Interpreter.checkMultisig_matching_twoOfThree :
    (operands [1] [3]).Accepted (interpreter.context [] .empty) ∧
    (interpreter.step (interpreter.context [] .empty) 0 (.operation .checkMultisig)
      (.initial (operands [1] [3]).stack)).outcome ()
        = .ok { stack := .ofBottomFirst [[7], [1]], opCount := 4 } ∧
    (interpreter.step (interpreter.context [] .empty) 0 (.operation .checkMultisigVerify)
      (.initial (operands [3] [1]).stack)).outcome ()
        = .error (.plain .checkMultisigVerify) := by
  obtain ⟨hanswer, -⟩ := checkMultisig_matching interpreter rfl [] .empty 0 _
    (accepted_operands [1] [3]) (.initial (operands [1] [3]).stack) rfl rfl (by decide) (by decide)
    ()
  obtain ⟨-, hverify⟩ := checkMultisig_matching interpreter rfl [] .empty 0 _
    (accepted_operands [3] [1]) (.initial (operands [3] [1]).stack) rfl rfl (by decide) (by decide)
    ()
  refine ⟨accepted_operands [1] [3], hanswer.trans ?_, hverify.trans ?_⟩
  · rfl
  · rfl

end SpendScript
