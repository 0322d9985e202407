import SpendScript.Proofs.Effect
import SpendScript.Proofs.NumberEncoding
/-!
# How long elements get

A push places as many bytes as the limit on pushes lets it. Every other element that an opcode
makes is a truth value, a number or a digest, and none of these is longer than 32 bytes. So no
opcode leaves an element that is longer than both this and the elements it found.

What this file fixes:

* `Stack.Within` -- no element is longer than a bound.
* `StackOp.Keeps` -- an operation that keeps a stack within its bound, closed under sequencing
  (`StackOp.Keeps.bind`), so that each opcode is its own pieces put together.
* `ScriptNumber.length_encode_le` -- what arithmetic leaves takes nine bytes at most.
* `Execute.within_operation` -- every operation keeps both stacks within a bound that holds a
  digest.
* `BuiltIn.within_step` -- every accepted chunk keeps both stacks within the limit on pushes.
-/

namespace SpendScript

/-- No element is longer than that. -/
def Stack.Within (size : Nat) (s : Stack Bytes) : Prop := ∀ x ∈ s, x.length ≤ size

instance (size : Nat) (s : Stack Bytes) : Decidable (s.Within size) :=
  inferInstanceAs (Decidable (∀ x ∈ s, x.length ≤ size))

namespace Stack.Within

variable {size : Nat} {s : Stack Bytes} {x : Bytes}

theorem nil (size : Nat) : Stack.Within size [] := fun _ h => nomatch h

theorem cons (hx : x.length ≤ size) (hs : s.Within size) : Stack.Within size (x :: s) :=
  List.forall_mem_cons.mpr ⟨hx, hs⟩

theorem head (h : Stack.Within size (x :: s)) : x.length ≤ size := h x List.mem_cons_self

theorem tail (h : Stack.Within size (x :: s)) : s.Within size :=
  fun y hy => h y (List.mem_cons_of_mem x hy)

theorem drop (h : s.Within size) (n : Nat) : Stack.Within size (s.drop n) :=
  fun y hy => h y (List.mem_of_mem_drop hy)

end Stack.Within

/-! ## 1. Operations on a stack -/

variable {α β : Type} {size : Nat}

/-- The operation leaves no element longer than the bound if there was none, and its result is as
said. -/
def StackOp.Keeps (size : Nat) (op : StackOp Bytes α) (result : α → Prop) : Prop :=
  ∀ s a t, Stack.Within size s → op s = .ok a t → Stack.Within size t ∧ result a

namespace StackOp.Keeps

variable {post : α → Prop} {post' : β → Prop}

/-- **Operations in sequence**: the second may count on what is said of the result of the first. -/
theorem bind {op : StackOp Bytes α} {f : α → StackOp Bytes β} (hop : Keeps size op post)
    (hf : ∀ a, post a → Keeps size (f a) post') : Keeps size (op >>= f) post' := by
  intro s b t hs h
  obtain ⟨a, r, ha, hb⟩ := EStateM.eq_ok_of_bind h
  obtain ⟨hr, hpost⟩ := hop s a r hs ha
  exact hf a hpost r b t hr hb

theorem pure {a : α} (h : post a) : Keeps size (Pure.pure a) post := by
  intro s b t hs hb
  cases hb
  exact ⟨hs, h⟩

theorem throw (e : Failure) : Keeps size (throwThe Failure e : StackOp Bytes α) post :=
  fun _ _ _ _ h => nomatch h

theorem lift {x : Except Failure α} (h : ∀ a, x = .ok a → post a) :
    Keeps size (Stack.lift x) post := by
  intro s a t hs ha
  cases hx : x with
  | error e => rw [hx] at ha; cases ha
  | ok b => rw [hx] at ha; cases ha; exact ⟨hs, h a hx⟩

theorem ite {p : Prop} [Decidable p] {x y : StackOp Bytes α} (hx : Keeps size x post)
    (hy : Keeps size y post) : Keeps size (if p then x else y) post := by
  split
  · exact hx
  · exact hy

theorem checkLen (n : Nat) : Keeps size (Stack.checkLen n) fun _ => True := by
  intro s a t hs h
  unfold Stack.checkLen at h
  split at h <;> cases h
  exact ⟨hs, trivial⟩

theorem len : Keeps size Stack.len fun _ => True := by
  intro s a t hs h
  cases h
  exact ⟨hs, trivial⟩

/-- What is looked at is an element. -/
theorem get (i : Nat) : Keeps size (Stack.get i) fun x => x.length ≤ size := by
  intro s x t hs h
  unfold Stack.get at h
  cases hx : s[i]? with
  | none => rw [hx] at h; cases h
  | some y => rw [hx] at h; cases h; exact ⟨hs, hs x (List.mem_of_getElem? hx)⟩

theorem pop : Keeps size Stack.pop fun x => x.length ≤ size := by
  intro s x t hs h
  cases s with
  | nil => cases h
  | cons y s => cases h; exact ⟨hs.tail, hs.head⟩

theorem push {x : Bytes} (hx : x.length ≤ size) : Keeps size (Stack.push x) fun _ => True := by
  intro s a t hs h
  cases h
  exact ⟨hs.cons hx, trivial⟩

theorem remove (i : Nat) : Keeps size (Stack.remove i) fun x => x.length ≤ size := by
  intro s x t hs h
  unfold Stack.remove at h
  cases hx : s[i]? with
  | none => rw [hx] at h; cases h
  | some y =>
    rw [hx] at h
    cases h
    exact ⟨fun z hz => hs z (List.mem_of_mem_eraseIdx hz), hs x (List.mem_of_getElem? hx)⟩

theorem insert (i : Nat) {x : Bytes} (hx : x.length ≤ size) :
    Keeps size (Stack.insert i x) fun _ => True := by
  intro s a t hs h
  unfold Stack.insert at h
  split at h <;> cases h
  next hi =>
  refine ⟨fun y hy => ?_, trivial⟩
  rcases (List.mem_insertIdx hi).mp hy with rfl | hy
  · exact hx
  · exact hs y hy

theorem swap (i j : Nat) : Keeps size (Stack.swap i j) fun _ => True := by
  refine bind (get i) fun x hx => bind (get j) fun y hy => ?_
  intro s a t hs h
  cases h
  refine ⟨fun z hz => ?_, trivial⟩
  rcases List.mem_or_eq_of_mem_set hz with hz | rfl
  · rcases List.mem_or_eq_of_mem_set hz with hz | rfl
    · exact hs z hz
    · exact hy
  · exact hx

theorem moveToTop (i : Nat) : Keeps size (Stack.moveToTop i) fun _ => True :=
  bind (remove i) fun _ => push

theorem repush (i : Nat) : Keeps size (Stack.repush i) fun _ => True := bind (get i) fun _ => push

theorem discard {op : StackOp Bytes α} (h : Keeps size op post) :
    Keeps size (Functor.discard op) fun _ => True :=
  bind h fun _ _ => pure trivial

theorem unop {f : Bytes → Except Failure Bytes}
    (h : ∀ x y, f x = .ok y → y.length ≤ size) : Keeps size (Stack.unop f) fun _ => True :=
  bind pop fun x _ => bind (lift (h x)) fun _ => push

theorem binfn {f : Bytes → Bytes → Except Failure α} (h : ∀ x y a, f x y = .ok a → post a) :
    Keeps size (Stack.binfn f) post :=
  bind (checkLen 2) fun _ _ => bind pop fun y _ => bind pop fun x _ => lift (h x y)

theorem binop {f : Bytes → Bytes → Except Failure Bytes}
    (h : ∀ x y z, f x y = .ok z → z.length ≤ size) : Keeps size (Stack.binop f) fun _ => True :=
  bind (binfn h) fun _ => push

end StackOp.Keeps

/-! ## 2. Numbers -/

namespace ScriptNumber

/-- Nine bytes hold the number. Every number of 64 bits is one of these, and what an operand
decodes to is one as well. -/
def Short (v : Int) : Prop := v.natAbs < 2 ^ 71

theorem length_encode_le {v : Int} (h : Short v) : (encode v).length ≤ 9 := by
  rw [length_encode]
  exact (Bytes.signedWidth_le_iff (by decide)).mpr h

theorem short_of_fits {v : Int} (h : Fits v) : Short v := by
  unfold Fits least at h
  unfold Short
  omega

theorem short_ofInt? {v w : Int} (h : ofInt? v = some w) : Short w := by
  obtain ⟨hfits, rfl⟩ := ofInt?_eq_some_iff.mp h
  exact short_of_fits hfits

theorem short_natCast {n : Nat} (h : n < 2 ^ 63) : Short n := by
  unfold Short
  omega

end ScriptNumber

/-- What decodes is short, whatever limit it was decoded under. -/
theorem Context.short_number {c : Context} {element : Bytes} {v : Int}
    (h : c.number element = .ok v) : ScriptNumber.Short v :=
  ScriptNumber.short_of_fits (ScriptNumber.fits_of_decode (Execute.decode_of_number h))

theorem length_ofBool_le (b : Bool) : (ofBool b).length ≤ 1 := by cases b <;> decide

/-! ## 3. Opcodes -/

namespace Execute

open StackOp Stack

variable {c : Context}

theorem keeps_last : Keeps size last fun x => x.length ≤ size := .get 0

theorem keeps_drop : Keeps size drop fun _ => True := .discard .pop

theorem keeps_drop2 : Keeps size drop2 fun _ => True :=
  .bind (.checkLen 2) fun _ _ => .bind keeps_drop fun _ _ => keeps_drop

theorem keeps_dup2 : Keeps size dup2 fun _ => True :=
  .bind (.checkLen 2) fun _ _ => .bind (.repush 1) fun _ _ => .repush 1

theorem keeps_dup3 : Keeps size dup3 fun _ => True :=
  .bind (.checkLen 3) fun _ _ => .bind (.repush 2) fun _ _ => .bind (.repush 2) fun _ _ =>
    .repush 2

theorem keeps_over2 : Keeps size over2 fun _ => True :=
  .bind (.checkLen 4) fun _ _ => .bind (.repush 3) fun _ _ => .repush 3

theorem keeps_rot2 : Keeps size rot2 fun _ => True :=
  .bind (.checkLen 6) fun _ _ => .bind (.moveToTop 5) fun _ _ => .moveToTop 5

theorem keeps_swap2 : Keeps size swap2 fun _ => True :=
  .bind (.checkLen 4) fun _ _ => .bind (.moveToTop 3) fun _ _ => .moveToTop 3

theorem keeps_ifDup : Keeps size ifDup fun _ => True :=
  .bind keeps_last fun _ _ => .ite (.repush 0) (.pure trivial)

theorem keeps_rot : Keeps size rot fun _ => True :=
  .bind (.checkLen 3) fun _ _ => .moveToTop 2

theorem keeps_swap : Keeps size swap fun _ => True :=
  .bind (.checkLen 2) fun _ _ => .swap 1 0

theorem keeps_tuck : Keeps size tuck fun _ => True :=
  .bind (.checkLen 2) fun _ _ => .bind keeps_last fun _ hx => .insert 2 hx

theorem keeps_popIndex : Keeps size (popIndex c) fun _ => True := by
  refine .bind (.checkLen 2) fun _ _ => .bind keeps_last fun _ _ => ?_
  refine .bind (.lift fun _ _ => trivial) fun n _ => .bind keeps_drop fun _ _ => ?_
  exact .bind .len fun length _ => .ite (.pure trivial) (.throw _)

theorem keeps_pick : Keeps size (pick c) fun _ => True := .bind keeps_popIndex fun i _ => .repush i

theorem keeps_roll : Keeps size (roll c) fun _ => True :=
  .bind keeps_popIndex fun i _ => .moveToTop i

theorem keeps_verify : Keeps size verify fun _ => True :=
  .bind keeps_last fun _ _ => .ite keeps_drop (.throw _)

variable (hsize : 32 ≤ size)
include hsize

theorem length_ofBool_le_size (b : Bool) : (ofBool b).length ≤ size :=
  Nat.le_trans (length_ofBool_le b) (by omega)

theorem length_encode_le_size {v : Int} (h : ScriptNumber.Short v) :
    (ScriptNumber.encode v).length ≤ size :=
  Nat.le_trans (ScriptNumber.length_encode_le h) (by omega)

/-- A result that is short is an element that is short. -/
theorem length_numberResult {v : Option Int} {x : Bytes}
    (hv : ∀ w, v = some w → ScriptNumber.Short w) (h : numberResult v = .ok x) :
    x.length ≤ size := by
  cases v with
  | none => cases h
  | some w => cases h; exact length_encode_le_size hsize (hv w rfl)

theorem keeps_unary {f : Int → Option Int} (hf : ∀ a w, f a = some w → ScriptNumber.Short w) :
    Keeps size (unary c f) fun _ => True := by
  refine .unop fun x y h => ?_
  obtain ⟨a, _, h⟩ := eq_ok_of_bind h
  exact length_numberResult hsize (hf a) h

theorem keeps_unaryTest (f : Int → Bool) : Keeps size (unaryTest c f) fun _ => True := by
  refine .unop fun x y h => ?_
  obtain ⟨a, _, h⟩ := eq_ok_of_bind h
  cases h
  exact length_ofBool_le_size hsize _

/-- The operands decode, so the function need only keep short numbers short. -/
theorem keeps_binary {f : Int → Int → Option Int}
    (hf : ∀ a b w, ScriptNumber.Short a → ScriptNumber.Short b → f a b = some w →
      ScriptNumber.Short w) :
    Keeps size (binary c f) fun _ => True := by
  refine .binop fun x1 x2 y h => ?_
  obtain ⟨a, ha, h⟩ := eq_ok_of_bind h
  obtain ⟨b, hb, h⟩ := eq_ok_of_bind h
  exact length_numberResult hsize
    (fun w => hf a b w (Context.short_number ha) (Context.short_number hb)) h

theorem keeps_binaryTest (f : Int → Int → Bool) : Keeps size (binaryTest c f) fun _ => True := by
  refine .binop fun x1 x2 y h => ?_
  obtain ⟨a, _, h⟩ := eq_ok_of_bind h
  obtain ⟨b, _, h⟩ := eq_ok_of_bind h
  cases h
  exact length_ofBool_le_size hsize _

theorem keeps_digest {f : Bytes → Bytes} (hf : ∀ x, (f x).length ≤ 32) :
    Keeps size (digest f) fun _ => True := by
  refine .unop fun x y h => ?_
  cases h
  exact Nat.le_trans (hf x) hsize

theorem keeps_equal : Keeps size equal fun _ => True := by
  refine .binop fun x1 x2 y h => ?_
  cases h
  exact length_ofBool_le_size hsize _

theorem keeps_within : Keeps size (within c) fun _ => True := by
  refine .bind (.checkLen 3) fun _ _ => ?_
  refine .bind (.get 2) fun _ _ => .bind (.lift fun _ _ => trivial) fun a _ => ?_
  refine .bind (.get 1) fun _ _ => .bind (.lift fun _ _ => trivial) fun low _ => ?_
  refine .bind (.get 0) fun _ _ => .bind (.lift fun _ _ => trivial) fun high _ => ?_
  refine .bind (.discard .pop) fun _ _ => .bind (.discard .pop) fun _ _ => ?_
  exact .bind (.discard .pop) fun _ _ => .push (length_ofBool_le_size hsize _)

theorem keeps_pushCount (kind : FailureKind) (count : Nat) :
    Keeps size (pushCount kind count) fun _ => True := by
  unfold pushCount
  split
  · next h => exact .push (length_encode_le_size hsize (ScriptNumber.short_natCast h))
  · exact .throw _

theorem keeps_depth : Keeps size depth fun _ => True :=
  .bind .len fun count _ => keeps_pushCount hsize .stackSize count

theorem keeps_size : Keeps size Execute.size fun _ => True :=
  .bind keeps_last fun x _ => keeps_pushCount hsize .pushSize x.length

end Execute

/-! ## 4. Chunks -/

/-- No element of either stack is longer than that. -/
def State.Within (size : Nat) (s : State) : Prop := s.stack.Within size ∧ s.alt.Within size

instance (size : Nat) (s : State) : Decidable (s.Within size) :=
  inferInstanceAs (Decidable (s.stack.Within size ∧ s.alt.Within size))

namespace Execute

variable {c : Context} {s s' : State}

theorem within_onStack {op : StackOp Bytes Unit} (hop : op.Keeps size fun _ => True)
    (hs : s.Within size) (h : s.onStack op = .ok s') : s'.Within size := by
  obtain ⟨stack, hstack, rfl⟩ := onStack_ok h
  exact ⟨(hop s.stack () stack hs.1 hstack).1, hs.2⟩

/-- An answer on the stack, or none. -/
theorem within_conclude (hsize : 32 ≤ size) {answer : Bool} {below stack : Stack Bytes}
    (h : stack = below ∨ stack = ofBool answer :: below) (hbelow : below.Within size) :
    stack.Within size := by
  rcases h with rfl | rfl
  · exact hbelow
  · exact hbelow.cons (length_ofBool_le_size hsize answer)

/-- **No operation makes an element too long.** -/
theorem within_operation (hsize : 32 ≤ size) {position : Nat} {op : Operation}
    (hs : s.Within size) (h : (operation c position s op).result = .ok s') : s'.Within size := by
  cases op
  case ret => cases h
  case nop | codeSeparator => cases h; exact hs
  case nop1 | nop3 | nop4 | nop5 | nop6 | nop7 | nop8 | nop9 | nop10 =>
    obtain rfl := upgradable_ok h
    exact hs
  case checkLockTimeVerify =>
    obtain rfl := lockTimeOpcode_ok h
    exact hs
  case toAltStack =>
    obtain ⟨x, stack, hstack, rfl⟩ := toAltStack_ok h
    have hboth : Stack.Within size (x :: stack) := hstack ▸ hs.1
    exact ⟨hboth.tail, hs.2.cons hboth.head⟩
  case fromAltStack =>
    obtain ⟨x, alt, halt, rfl⟩ := fromAltStack_ok h
    have hboth : Stack.Within size (x :: alt) := halt ▸ hs.2
    exact ⟨hs.1.cons hboth.head, hboth.tail⟩
  -- a check of signatures leaves an answer on what lies under its operands
  case checkSig | checkSigVerify =>
    obtain ⟨key, sig, below, answer, stack, hstack, hconclude, rfl⟩ := checkSig_ok h
    have hall : Stack.Within size (key :: sig :: below) := hstack ▸ hs.1
    exact ⟨within_conclude hsize hconclude hall.tail.tail, hs.2⟩
  case checkMultisig | checkMultisigVerify =>
    obtain ⟨_, n, spare, below, answer, stack, hdrop, hconclude, rfl⟩ := checkMultisig_ok h
    have hrest : Stack.Within size (spare :: below) := hdrop ▸ hs.1.drop n
    exact ⟨within_conclude hsize hconclude hrest.tail, hs.2⟩
  -- all others only work on the stack
  case verify => exact within_onStack keeps_verify hs h
  case drop2 => exact within_onStack keeps_drop2 hs h
  case dup2 => exact within_onStack keeps_dup2 hs h
  case dup3 => exact within_onStack keeps_dup3 hs h
  case over2 => exact within_onStack keeps_over2 hs h
  case rot2 => exact within_onStack keeps_rot2 hs h
  case swap2 => exact within_onStack keeps_swap2 hs h
  case ifDup => exact within_onStack keeps_ifDup hs h
  case depth => exact within_onStack (keeps_depth hsize) hs h
  case drop => exact within_onStack keeps_drop hs h
  case dup => exact within_onStack (.repush 0) hs h
  case nip => exact within_onStack (.discard (.remove 1)) hs h
  case over1 => exact within_onStack (.repush 1) hs h
  case pick => exact within_onStack keeps_pick hs h
  case roll => exact within_onStack keeps_roll hs h
  case rot => exact within_onStack keeps_rot hs h
  case swap => exact within_onStack keeps_swap hs h
  case tuck => exact within_onStack keeps_tuck hs h
  case size => exact within_onStack (keeps_size hsize) hs h
  case equal => exact within_onStack (keeps_equal hsize) hs h
  case equalVerify => exact within_onStack (.binfn fun _ _ _ _ => trivial) hs h
  case numEqualVerify => exact within_onStack (.binfn fun _ _ _ _ => trivial) hs h
  case add1 | sub1 | negate | abs =>
    exact within_onStack (keeps_unary hsize fun _ _ => ScriptNumber.short_ofInt?) hs h
  case not | notEqual0 => exact within_onStack (keeps_unaryTest hsize _) hs h
  case add | sub =>
    exact within_onStack (keeps_binary hsize fun _ _ _ _ _ => ScriptNumber.short_ofInt?) hs h
  case boolAnd | boolOr | numEqual | numNotEqual | lessThan | greaterThan | lessThanOrEqual
      | greaterThanOrEqual =>
    exact within_onStack (keeps_binaryTest hsize _) hs h
  case min | max =>
    refine within_onStack (keeps_binary hsize fun a b w ha hb hw => ?_) hs h
    cases hw
    unfold ScriptNumber.Short at ha hb ⊢
    omega
  case within => exact within_onStack (keeps_within hsize) hs h
  case ripemd160 | sha1 | sha256 | hash160 | hash256 =>
    exact within_onStack (keeps_digest hsize fun x => by simp) hs h

theorem within_control {op : Control} (hs : s.Within size) (h : control op s = .ok s') :
    s'.Within size := by
  obtain ⟨stack, conditions, rfl | ⟨top, hstack⟩, _, rfl⟩ := control_ok h
  · exact hs
  · have hall : Stack.Within size (top :: stack) := hstack ▸ hs.1
    exact ⟨hall.tail, hs.2⟩

end Execute

/-- **No accepted chunk makes an element too long**, if the limit on pushes holds a digest: what is
pushed is within the limit, and what opcodes make is short. -/
theorem BuiltIn.within_step {c : Context} {position : Nat} {chunk : Chunk} {s s' : State}
    (hsize : 32 ≤ c.limits.maxPushSize) (hs : s.Within c.limits.maxPushSize)
    (h : (step c position chunk s).result = .ok s') : s'.Within c.limits.maxPushSize := by
  obtain ⟨hpush, _, _, hdispatch, _⟩ := step_ok h
  have hcounted : (s.counted chunk).Within c.limits.maxPushSize := hs
  rcases dispatch_cases c position chunk (s.counted chunk) with ⟨hrun, _⟩ | ⟨hidle, _⟩
  · rw [hrun] at hdispatch
    cases chunk with
    | push p =>
      obtain ⟨_, rfl⟩ := Execute.push_ok hdispatch
      obtain ⟨_, hle⟩ := badPush?_eq_none_iff.mp hpush
      exact ⟨hcounted.1.cons hle, hcounted.2⟩
    | control op => exact Execute.within_control hcounted hdispatch
    | operation op => exact Execute.within_operation hsize hcounted hdispatch
    | disabled d => cases hdispatch
    | bad b => cases hdispatch
  · rw [hidle] at hdispatch
    cases hdispatch
    exact hcounted

end SpendScript
