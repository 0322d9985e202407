import SpendScript.Proofs.Effect
/-!
# Stack diagrams

Opcodes that copy, move, drop and measure elements are documented by diagrams: what is on the stack
before and after, the top on the right. They are run as sequences of moves whose indexes count from
a top that changes under them. This file writes the diagrams down as a relation of their own, and
says that each opcode does what its diagram says, and when it fails.

What this file fixes:

* `Execute.Diagram` -- the diagrams.
* `Operation.shown?` -- how many elements a diagram shows at least; `none` for other opcodes.
* `Execute.Rewrites`, `Execute.Refuses` -- what such an opcode does to the machine, and the failures
  that stand in its way.
* `Execute.result_of_rewrites`, `Execute.error_of_refuses`, `Execute.rewrites_or_refuses` -- the
  opcode does either, and one of them is always the case.
* `Interpreter.stackOpcode_diagrams` -- one chunk of a script, with the limit on the stacks.
-/

namespace SpendScript

variable {μ : Type}

/-! ## 1. The diagrams -/

namespace Execute

/-- **The diagrams**: what is on the top before and after, bottom first, in a stack of `count`
elements. An index is the number `n` that is taken off, for the element that has `n` elements above
it then. -/
inductive Diagram (c : Context) (count : Nat) : Operation → (before after : List Bytes) → Prop
  | drop2 {x1 x2 : Bytes} : Diagram c count .drop2 [x1, x2] []
  | dup2 {x1 x2 : Bytes} : Diagram c count .dup2 [x1, x2] [x1, x2, x1, x2]
  | dup3 {x1 x2 x3 : Bytes} : Diagram c count .dup3 [x1, x2, x3] [x1, x2, x3, x1, x2, x3]
  | over2 {x1 x2 x3 x4 : Bytes} :
      Diagram c count .over2 [x1, x2, x3, x4] [x1, x2, x3, x4, x1, x2]
  | rot2 {x1 x2 x3 x4 x5 x6 : Bytes} :
      Diagram c count .rot2 [x1, x2, x3, x4, x5, x6] [x3, x4, x5, x6, x1, x2]
  | swap2 {x1 x2 x3 x4 : Bytes} : Diagram c count .swap2 [x1, x2, x3, x4] [x3, x4, x1, x2]
  | ifDup_true {x : Bytes} (hx : truthy x = true) : Diagram c count .ifDup [x] [x, x]
  | ifDup_false {x : Bytes} (hx : truthy x = false) : Diagram c count .ifDup [x] [x]
  | depth : Diagram c count .depth [] [ScriptNumber.encode count]
  | drop {x : Bytes} : Diagram c count .drop [x] []
  | dup {x : Bytes} : Diagram c count .dup [x] [x, x]
  | nip {x1 x2 : Bytes} : Diagram c count .nip [x1, x2] [x2]
  | over1 {x1 x2 : Bytes} : Diagram c count .over1 [x1, x2] [x1, x2, x1]
  | pick {xn n : Bytes} {above : List Bytes} (hn : c.number n = .ok (above.length : Int)) :
      Diagram c count .pick (xn :: above ++ [n]) (xn :: above ++ [xn])
  | roll {xn n : Bytes} {above : List Bytes} (hn : c.number n = .ok (above.length : Int)) :
      Diagram c count .roll (xn :: above ++ [n]) (above ++ [xn])
  | rot {x1 x2 x3 : Bytes} : Diagram c count .rot [x1, x2, x3] [x2, x3, x1]
  | swap {x1 x2 : Bytes} : Diagram c count .swap [x1, x2] [x2, x1]
  | tuck {x1 x2 : Bytes} : Diagram c count .tuck [x1, x2] [x2, x1, x2]
  | size {x : Bytes} : Diagram c count .size [x] [x, ScriptNumber.encode x.length]

/-- **What an opcode on the stacks does to the machine.** The elements that its diagram shows are
rewritten, or one element goes from one stack to the other, and nothing else changes. -/
inductive Rewrites (c : Context) : Operation → (s s' : State) → Prop
  | diagram {op : Operation} {s : State} {rest before after : List Bytes}
      (hstack : s.stack = .ofBottomFirst (rest ++ before))
      (h : Diagram c s.stack.length op before after) :
      Rewrites c op s { s with stack := .ofBottomFirst (rest ++ after) }
  | toAltStack {s : State} {x : Bytes} {rest : List Bytes}
      (hstack : s.stack = .ofBottomFirst (rest ++ [x])) :
      Rewrites c .toAltStack s { s with stack := .ofBottomFirst rest, alt := x :: s.alt }
  | fromAltStack {s : State} {x : Bytes} {alt : Stack Bytes} (halt : s.alt = x :: alt) :
      Rewrites c .fromAltStack s { s with stack := x :: s.stack, alt }

end Execute

/-- How many elements an opcode on the stacks has to find at least. -/
def Operation.shown? : Operation → Option Nat
  | .depth | .fromAltStack => some 0
  | .ifDup | .drop | .dup | .size | .toAltStack => some 1
  | .drop2 | .dup2 | .nip | .over1 | .pick | .roll | .swap | .tuck => some 2
  | .dup3 | .rot => some 3
  | .over2 | .swap2 => some 4
  | .rot2 => some 6
  | _ => none

namespace Execute

/-- **What stands in the way of an opcode on the stacks**: too few elements, or an index that is no
number or reaches no element. -/
inductive Refuses (c : Context) : Operation → State → FailureKind → Prop
  | shallow {op : Operation} {s : State} {n : Nat} (hshown : op.shown? = some n)
      (hfew : s.stack.length < n) : Refuses c op s .invalidStackOperation
  | altEmpty {s : State} (halt : s.alt = []) :
      Refuses c .fromAltStack s .invalidAltstackOperation
  | noNumber {op : Operation} {s : State} {n x : Bytes} {below : Stack Bytes} {e : Failure}
      (hindex : op = .pick ∨ op = .roll) (hstack : s.stack = n :: x :: below)
      (hn : c.number n = .error e) : Refuses c op s .scriptNum
  | outOfRange {op : Operation} {s : State} {n x : Bytes} {below : Stack Bytes} {v : Int}
      (hindex : op = .pick ∨ op = .roll) (hstack : s.stack = n :: x :: below)
      (hn : c.number n = .ok v) (hrange : ¬ (0 ≤ v ∧ v < (x :: below).length)) :
      Refuses c op s .invalidStackOperation

/-- The lengths that opcodes measure fit 64 bits, as those of anything in memory do. -/
structure Measurable (stack : Stack Bytes) : Prop where
  count : stack.length < 2 ^ 63
  lengths : ∀ x ∈ stack, x.length < 2 ^ 63

variable {c : Context} {position : Nat} {op : Operation} {s s' : State}

/-! ## 2. An opcode does what its diagram says -/

/-- What follows a check of the depth is run if there are enough elements. -/
theorem checkLen_bind {needed : Nat} {stack : Stack Bytes} (h : needed ≤ stack.length)
    (op : StackOp Bytes Unit) : (Stack.checkLen needed >>= fun _ => op) stack = op stack :=
  EStateM.bind_ok (Stack.checkLen_of_le h)

theorem onStack_of_ok {op : StackOp Bytes Unit} {stack left : Stack Bytes}
    (hstack : s.stack = stack) (h : op stack = .ok () left) :
    s.onStack op = .ok { s with stack := left } := by
  unfold State.onStack
  rw [hstack, h]

theorem pushCount_of_lt {kind : FailureKind} {count : Nat} (h : count < 2 ^ 63)
    (stack : Stack Bytes) :
    pushCount kind count stack = .ok () (ScriptNumber.encode count :: stack) := by
  unfold pushCount
  rw [if_pos h]
  rfl

/-- **An index is read before it is taken off**, and then it has to reach an element of what is
left. -/
theorem popIndex_cons {n : Bytes} {below : Stack Bytes} (h : 1 ≤ below.length) :
    popIndex c (n :: below) =
      match c.number n with
      | .error e => .error e (n :: below)
      | .ok v =>
        if 0 ≤ v ∧ v < below.length then .ok v.toNat below
        else .error (.onStack (.indexOutOfRange v below.length)) below := by
  have hread : popIndex c (n :: below) = (Stack.lift (c.number n) >>= fun v => do
      discard Stack.pop
      let length ← Stack.len
      if 0 ≤ v ∧ v < length then return v.toNat
      else throw (.onStack (.indexOutOfRange v length))) (n :: below) :=
    EStateM.bind_ok (Stack.checkLen_of_le (Nat.succ_le_succ h))
  rw [hread]
  cases c.number n with
  | error e => rfl
  | ok v =>
    show (if 0 ≤ v ∧ v < below.length then _ else _ : StackOp Bytes Nat) _ = _
    by_cases hrange : 0 ≤ v ∧ v < (below.length : Int)
    · rw [if_pos hrange]
      dsimp only
      rw [if_pos hrange]
      rfl
    · rw [if_neg hrange]
      dsimp only
      rw [if_neg hrange]
      rfl

/-- The index of a diagram, and what it leaves: the elements above the one that it reaches. -/
theorem popIndex_of_diagram {xn n : Bytes} {above : List Bytes}
    (hn : c.number n = .ok (above.length : Int)) (below : Stack Bytes) :
    popIndex c ((xn :: above ++ [n]).reverse ++ below)
      = .ok above.length (above.reverse ++ xn :: below) := by
  have hshape : (xn :: above ++ [n]).reverse ++ below = n :: (above.reverse ++ xn :: below) := by
    simp
  have hlength : (above.reverse ++ xn :: below).length = above.length + below.length + 1 := by
    rw [List.length_append, List.length_reverse, List.length_cons, Nat.add_assoc]
  have hrange : (0 : Int) ≤ above.length ∧
      (above.length : Int) < (above.reverse ++ xn :: below).length := by
    omega
  rw [hshape, popIndex_cons (by omega), hn]
  exact if_pos hrange

/-- **An opcode does what its diagram says.** -/
theorem result_of_diagram {rest before after : List Bytes}
    (hstack : s.stack = .ofBottomFirst (rest ++ before)) (hmeasurable : Measurable s.stack)
    (h : Diagram c s.stack.length op before after) :
    (operation c position s op).result =
      .ok { s with stack := .ofBottomFirst (rest ++ after) } := by
  rw [Stack.ofBottomFirst_append] at hstack ⊢
  generalize Stack.ofBottomFirst rest = below at hstack ⊢
  generalize hcount : s.stack.length = count at h
  cases h with
  | drop2 | dup2 | dup3 | over2 | rot2 | swap2 | rot | swap =>
    refine onStack_of_ok hstack (checkLen_bind ?_ _)
    exact Nat.le_add_left _ _
  | drop | dup | nip | over1 => exact onStack_of_ok hstack rfl
  | @tuck x1 x2 =>
    have hinsert : Stack.insert 2 x2 (x2 :: x1 :: below) = .ok () (x2 :: x1 :: x2 :: below) :=
      if_pos (Nat.le_add_left 2 _)
    exact onStack_of_ok hstack ((checkLen_bind (Nat.le_add_left 2 _) _).trans hinsert)
  | ifDup_true hx =>
    refine onStack_of_ok hstack ?_
    show (if truthy _ = true then Stack.repush 0 else pure ()) _ = _
    rw [if_pos hx]
    rfl
  | ifDup_false hx =>
    refine onStack_of_ok hstack ?_
    show (if truthy _ = true then Stack.repush 0 else pure ()) _ = _
    rw [if_neg (Bool.eq_false_iff.mp hx)]
    rfl
  | depth =>
    rw [← hcount]
    refine onStack_of_ok hstack ?_
    rw [hstack]
    exact pushCount_of_lt (hstack ▸ hmeasurable.count) _
  | @size x =>
    have hx : x ∈ s.stack := by
      rw [hstack]
      exact List.mem_cons_self
    exact onStack_of_ok hstack (pushCount_of_lt (hmeasurable.lengths x hx) _)
  | @pick xn n above hn =>
    have hcopied := Stack.repush_of_getElem? (Stack.getElem?_above xn above below)
    refine onStack_of_ok hstack ((EStateM.bind_ok (popIndex_of_diagram hn below)).trans ?_)
    rw [hcopied]
    simp
  | @roll xn n above hn =>
    have hmoved := Stack.moveToTop_of_getElem? (Stack.getElem?_above xn above below)
    refine onStack_of_ok hstack ((EStateM.bind_ok (popIndex_of_diagram hn below)).trans ?_)
    rw [hmoved]
    simp [List.eraseIdx_append_of_length_le]

/-- What an opcode on the stacks does to the machine, it does. -/
theorem result_of_rewrites (hmeasurable : Measurable s.stack) (h : Rewrites c op s s') :
    (operation c position s op).result = .ok s' := by
  cases h with
  | diagram hstack hdiagram => exact result_of_diagram hstack hmeasurable hdiagram
  | toAltStack hstack =>
    rw [Stack.ofBottomFirst_append] at hstack
    show toAltStack s = _
    unfold toAltStack
    rw [hstack]
    rfl
  | fromAltStack halt =>
    show fromAltStack s = _
    unfold fromAltStack
    rw [halt]

/-! ## 3. What stands in its way -/

/-- An operation that finds fewer elements than it needs fails, and says so. -/
def FailsBelow {α : Type} (n : Nat) (op : StackOp Bytes α) : Prop :=
  ∀ stack : Stack Bytes, stack.length < n → ∃ detail left, op stack = .error (.onStack detail) left

theorem FailsBelow.bind {α β : Type} {n : Nat} {op : StackOp Bytes α} (h : FailsBelow n op)
    (f : α → StackOp Bytes β) : FailsBelow n (op >>= f) := by
  intro stack hfew
  obtain ⟨detail, left, hop⟩ := h stack hfew
  exact ⟨detail, left, EStateM.bind_error hop⟩

theorem FailsBelow.discard {α : Type} {n : Nat} {op : StackOp Bytes α} (h : FailsBelow n op) :
    FailsBelow n (discard op) := by
  intro stack hfew
  obtain ⟨detail, left, hop⟩ := h stack hfew
  refine ⟨detail, left, ?_⟩
  show EStateM.map _ op stack = _
  unfold EStateM.map
  rw [hop]

theorem failsBelow_checkLen (n : Nat) : FailsBelow n (Stack.checkLen n) :=
  fun _ hfew => ⟨_, _, Stack.checkLen_of_lt hfew⟩

theorem failsBelow_get (i : Nat) : FailsBelow (i + 1) (Stack.get i) :=
  fun _ hfew => ⟨_, _, Stack.get_of_le (Nat.le_of_lt_succ hfew)⟩

theorem failsBelow_remove (i : Nat) : FailsBelow (i + 1) (Stack.remove i) :=
  fun _ hfew => ⟨_, _, Stack.remove_of_le (Nat.le_of_lt_succ hfew)⟩

theorem failsBelow_pop : FailsBelow 1 Stack.pop := by
  intro stack hfew
  cases stack with
  | nil => exact ⟨_, _, rfl⟩
  | cons x below => exact absurd hfew (Nat.not_lt.mpr (Nat.le_add_left 1 _))

theorem onStack_of_failsBelow {n : Nat} {op : StackOp Bytes Unit} (h : FailsBelow n op)
    (hfew : s.stack.length < n) :
    ∃ detail, s.onStack op = .error ⟨.invalidStackOperation, detail⟩ := by
  obtain ⟨detail, left, hop⟩ := h s.stack hfew
  refine ⟨some detail, ?_⟩
  unfold State.onStack
  rw [hop]
  rfl

/-- **An opcode that finds fewer elements than its diagram shows** fails. -/
theorem error_of_shallow {n : Nat} (hshown : op.shown? = some n) (hfew : s.stack.length < n) :
    ∃ detail, (operation c position s op).result = .error ⟨.invalidStackOperation, detail⟩ := by
  cases op
  case drop2 | dup2 | swap | tuck | dup3 | rot | over2 | swap2 | rot2 =>
    cases hshown
    exact onStack_of_failsBelow ((failsBelow_checkLen _).bind _) hfew
  case pick | roll =>
    cases hshown
    exact onStack_of_failsBelow (((failsBelow_checkLen 2).bind _).bind _) hfew
  case ifDup | size | dup =>
    cases hshown
    exact onStack_of_failsBelow ((failsBelow_get 0).bind _) hfew
  case over1 =>
    cases hshown
    exact onStack_of_failsBelow ((failsBelow_get 1).bind _) hfew
  case drop =>
    cases hshown
    exact onStack_of_failsBelow failsBelow_pop.discard hfew
  case nip =>
    cases hshown
    exact onStack_of_failsBelow (failsBelow_remove 1).discard hfew
  case toAltStack =>
    cases hshown
    obtain ⟨detail, left, hpop⟩ := failsBelow_pop s.stack hfew
    refine ⟨some detail, ?_⟩
    show toAltStack s = _
    unfold toAltStack
    rw [hpop]
    rfl
  case depth | fromAltStack =>
    cases hshown
    exact absurd hfew (Nat.not_lt_zero _)
  all_goals cases hshown

/-- An index that is no number or reaches no element fails, and so does what follows it. -/
theorem onStack_of_popIndex_error {stack left : Stack Bytes} {e : Failure}
    (hstack : s.stack = stack) (h : popIndex c stack = .error e left)
    (f : Nat → StackOp Bytes Unit) : s.onStack (popIndex c >>= f) = .error e := by
  unfold State.onStack
  rw [hstack, EStateM.bind_error h]

theorem kind_of_number_eq_error {x : Bytes} {e : Failure} (h : c.number x = .error e) :
    e.kind = .scriptNum := by
  unfold Context.number at h
  cases hdecode : ScriptNumber.decode x c.flags.minimalData c.limits.maxNumSize with
  | ok v => rw [hdecode] at h; cases h
  | error malformed => rw [hdecode] at h; cases h; rfl

/-- **What stands in the way of an opcode on the stacks makes it fail.** -/
theorem error_of_refuses {kind : FailureKind} (h : Refuses c op s kind) (position : Nat) :
    ∃ detail, (operation c position s op).result = .error ⟨kind, detail⟩ := by
  cases h with
  | shallow hshown hfew => exact error_of_shallow hshown hfew
  | altEmpty halt =>
    refine ⟨none, ?_⟩
    show fromAltStack s = _
    unfold fromAltStack
    rw [halt]
    rfl
  | @noNumber _ _ n x below e hindex hstack hn =>
    have hfails : popIndex c (n :: x :: below) = .error e (n :: x :: below) := by
      rw [popIndex_cons (Nat.le_add_left 1 _), hn]
    rw [← kind_of_number_eq_error hn]
    refine ⟨e.detail, ?_⟩
    rcases hindex with rfl | rfl
    · exact onStack_of_popIndex_error hstack hfails Stack.repush
    · exact onStack_of_popIndex_error hstack hfails Stack.moveToTop
  | @outOfRange _ _ n x below v hindex hstack hn hrange =>
    have hfails : popIndex c (n :: x :: below)
        = .error (.onStack (.indexOutOfRange v (x :: below).length)) (x :: below) := by
      rw [popIndex_cons (Nat.le_add_left 1 _), hn]
      exact if_neg hrange
    refine ⟨some (.indexOutOfRange v (x :: below).length), ?_⟩
    rcases hindex with rfl | rfl
    · exact onStack_of_popIndex_error hstack hfails Stack.repush
    · exact onStack_of_popIndex_error hstack hfails Stack.moveToTop

/-! ## 4. One of the two is the case -/

theorem exists_top {n : Nat} {stack : Stack Bytes} (h : n ≤ stack.length) :
    ∃ rest before : List Bytes, before.length = n ∧
      stack = .ofBottomFirst (rest ++ before) := by
  rw [← Stack.length_bottomFirst] at h
  obtain ⟨rest, before, hlength, hsplit⟩ := Stack.exists_split h
  exact ⟨rest, before, hlength, by rw [← hsplit, Stack.ofBottomFirst_bottomFirst]⟩

/-- The element that has so many elements above it. -/
theorem exists_above {k : Nat} {stack : Stack Bytes} (h : k < stack.length) :
    ∃ (rest : List Bytes) (xn : Bytes) (above : List Bytes), above.length = k ∧
      stack = .ofBottomFirst (rest ++ xn :: above) := by
  rw [← Stack.length_bottomFirst] at h
  obtain ⟨rest, xn, above, hlength, hsplit⟩ := Stack.exists_middle h
  exact ⟨rest, xn, above, hlength, by rw [← hsplit, Stack.ofBottomFirst_bottomFirst]⟩

/-- An index on the top reaches an element, or it stands in the way. -/
theorem index_or_refuses (hindex : op = .pick ∨ op = .roll) (hdeep : 2 ≤ s.stack.length) :
    (∃ (rest : List Bytes) (xn n : Bytes) (above : List Bytes),
      s.stack = .ofBottomFirst (rest ++ (xn :: above ++ [n])) ∧
        c.number n = .ok (above.length : Int)) ∨
      ∃ kind, Refuses c op s kind := by
  obtain ⟨n, x, below, hstack⟩ : ∃ n x below, s.stack = n :: x :: below := by
    match s.stack, hdeep with
    | n :: x :: below, _ => exact ⟨n, x, below, rfl⟩
  cases hn : c.number n with
  | error e => exact .inr ⟨_, .noNumber hindex hstack hn⟩
  | ok v =>
    by_cases hrange : 0 ≤ v ∧ v < (x :: below).length
    · obtain ⟨hzero, hreach⟩ := hrange
      obtain ⟨k, rfl⟩ := Int.eq_ofNat_of_zero_le hzero
      obtain ⟨rest, xn, above, rfl, hbelow⟩ := exists_above (Int.ofNat_lt.mp hreach)
      refine .inl ⟨rest, xn, n, above, ?_, hn⟩
      rw [hstack, hbelow]
      simp [Stack.ofBottomFirst]
    · exact .inr ⟨_, .outOfRange hindex hstack hn hrange⟩

/-- **An opcode on the stacks rewrites or refuses.** -/
theorem rewrites_or_refuses {n : Nat} (hshown : op.shown? = some n) :
    (∃ s', Rewrites c op s s') ∨ ∃ kind, Refuses c op s kind := by
  rcases Nat.lt_or_ge s.stack.length n with hfew | hdeep
  · exact .inr ⟨_, .shallow hshown hfew⟩
  obtain ⟨rest, before, hlength, hstack⟩ := exists_top hdeep
  -- the elements that the diagram shows, by name
  cases op
  case depth =>
    cases hshown
    match before, hlength with
    | [], _ => exact .inl ⟨_, .diagram hstack .depth⟩
  case ifDup =>
    cases hshown
    match before, hlength with
    | [x], _ =>
      cases hx : truthy x with
      | true => exact .inl ⟨_, .diagram hstack (.ifDup_true hx)⟩
      | false => exact .inl ⟨_, .diagram hstack (.ifDup_false hx)⟩
  case drop | dup | size =>
    cases hshown
    match before, hlength with
    | [x], _ => exact .inl ⟨_, .diagram hstack (by constructor)⟩
  case drop2 | dup2 | nip | over1 | swap | tuck =>
    cases hshown
    match before, hlength with
    | [x1, x2], _ => exact .inl ⟨_, .diagram hstack (by constructor)⟩
  case dup3 | rot =>
    cases hshown
    match before, hlength with
    | [x1, x2, x3], _ => exact .inl ⟨_, .diagram hstack (by constructor)⟩
  case over2 | swap2 =>
    cases hshown
    match before, hlength with
    | [x1, x2, x3, x4], _ => exact .inl ⟨_, .diagram hstack (by constructor)⟩
  case rot2 =>
    cases hshown
    match before, hlength with
    | [x1, x2, x3, x4, x5, x6], _ => exact .inl ⟨_, .diagram hstack (by constructor)⟩
  case pick =>
    cases hshown
    refine (index_or_refuses (.inl rfl) hdeep).imp_left ?_
    rintro ⟨rest, xn, n, above, hstack, hn⟩
    exact ⟨_, .diagram hstack (.pick hn)⟩
  case roll =>
    cases hshown
    refine (index_or_refuses (.inr rfl) hdeep).imp_left ?_
    rintro ⟨rest, xn, n, above, hstack, hn⟩
    exact ⟨_, .diagram hstack (.roll hn)⟩
  case toAltStack =>
    cases hshown
    match before, hlength with
    | [x], _ => exact .inl ⟨_, .toAltStack hstack⟩
  case fromAltStack =>
    cases halt : s.alt with
    | nil => exact .inr ⟨_, .altEmpty halt⟩
    | cons x alt => exact .inl ⟨_, .fromAltStack halt⟩
  all_goals cases hshown

end Execute

/-! ## 5. One chunk of a script -/

/-- An opcode on the stacks for which there is room: what it does and whether it fails. -/
theorem BuiltIn.result_step_stackOpcode {c : Context} {s : State} (hactive : s.isActive)
    (hops : s.opCount + 1 ≤ c.limits.maxOpCount) (hmeasurable : Execute.Measurable s.stack)
    (position : Nat) (op : Operation) :
    let counted := { s with opCount := s.opCount + 1 }
    (∀ s', Execute.Rewrites c op counted s' →
      (step c position (.operation op) s).result = Interpreter.checkDepth c.limits s') ∧
    (∀ kind, Execute.Refuses c op counted kind →
      ∃ detail, (step c position (.operation op) s).result = .error ⟨kind, detail⟩) := by
  intro counted
  rw [step_operation hactive hops, Run.result_bind]
  refine ⟨fun s' hrewrites => ?_, fun kind hrefuses => ?_⟩
  · rw [Execute.result_of_rewrites (s := counted) hmeasurable hrewrites]
    rfl
  · obtain ⟨detail, hfails⟩ := Execute.error_of_refuses hrefuses position
    exact ⟨detail, by rw [hfails]; rfl⟩

/-- **Every opcode on the stacks realises its diagram.** Without extensions, in a branch that is
taken and with room for one operation more: it succeeds where its diagram, or its move from one
stack to the other, leads from the machine with the operation counted to one that keeps the limit on
the stacks, and nothing but what the diagram shows has changed then. It fails where something stands
in its way, with the failure that this is, or where what it leaves would exceed the limit. -/
theorem Interpreter.stackOpcode_diagrams (i : Interpreter μ) (hext : i.extensions = [])
    (script : Program) (flags : Flags) (position : Nat) {op : Operation} {n : Nat}
    (hshown : op.shown? = some n) (s : State) (hactive : s.isActive)
    (hops : s.opCount + 1 ≤ i.limits.maxOpCount) (hmeasurable : Execute.Measurable s.stack)
    (m : μ) :
    let c := i.context script flags
    let counted := { s with opCount := s.opCount + 1 }
    let done := (i.step c position (.operation op) s).outcome m
    (∀ s', done = .ok s' ↔
      Execute.Rewrites c op counted s' ∧ s'.depth ≤ i.limits.maxStackSize) ∧
    (∀ kind, (∃ detail, done = .error ⟨kind, detail⟩) ↔
      Execute.Refuses c op counted kind ∨ kind = .stackSize ∧
        ∃ s', Execute.Rewrites c op counted s' ∧ i.limits.maxStackSize < s'.depth) := by
  intro c counted done
  have hdone : done = (BuiltIn.step c position (.operation op) s).result :=
    outcome_step hext rfl position (.operation op) s m
  obtain ⟨hrewrites, hrefuses⟩ := BuiltIn.result_step_stackOpcode (c := c) hactive hops hmeasurable
    position op
  rw [← hdone] at hrewrites hrefuses
  have hcases := Execute.rewrites_or_refuses (c := c) (s := counted) hshown
  have hwithin : ∀ s', Execute.Rewrites c op counted s' → s'.depth ≤ i.limits.maxStackSize →
      done = .ok s' := by
    intro s' hto hdepth
    rw [hrewrites s' hto]
    exact if_neg (Nat.not_lt.mpr hdepth)
  have hover : ∀ s', Execute.Rewrites c op counted s' → i.limits.maxStackSize < s'.depth →
      done = .error (.plain .stackSize) := by
    intro s' hto hdepth
    rw [hrewrites s' hto]
    exact if_pos hdepth
  refine ⟨fun s' => ⟨fun hok => ?_, fun ⟨hto, hdepth⟩ => hwithin s' hto hdepth⟩,
    fun kind => ⟨fun ⟨detail, herror⟩ => ?_, fun h => ?_⟩⟩
  · rcases hcases with ⟨left, hto⟩ | ⟨kind, hkind⟩
    · rcases Nat.lt_or_ge i.limits.maxStackSize left.depth with hmore | hdepth
      · cases hok.symm.trans (hover left hto hmore)
      · cases hok.symm.trans (hwithin left hto hdepth)
        exact ⟨hto, hdepth⟩
    · obtain ⟨_, hfails⟩ := hrefuses kind hkind
      cases hok.symm.trans hfails
  · rcases hcases with ⟨left, hto⟩ | ⟨kind', hkind⟩
    · rcases Nat.lt_or_ge i.limits.maxStackSize left.depth with hmore | hdepth
      · cases herror.symm.trans (hover left hto hmore)
        exact .inr ⟨rfl, left, hto, hmore⟩
      · cases herror.symm.trans (hwithin left hto hdepth)
    · obtain ⟨_, hfails⟩ := hrefuses kind' hkind
      cases herror.symm.trans hfails
      exact .inl hkind
  · rcases h with hkind | ⟨rfl, left, hto, hmore⟩
    · exact hrefuses kind hkind
    · exact ⟨none, hover left hto hmore⟩

/-- The index two brings the third element below it to the top, and an index of three reaches too
far: it is taken off for nothing. -/
theorem Interpreter.stackOpcode_diagrams_roll :
    let c := plain.context [] .empty
    let s := State.initial (.ofBottomFirst [[7], [8], [9], [2]])
    let far := State.initial (.ofBottomFirst [[7], [8], [9], [3]])
    Operation.shown? .roll = some 2 ∧ s.isActive ∧ Execute.Measurable s.stack ∧
    (plain.step c 0 (.operation .roll) s).outcome ()
      = .ok { s with stack := .ofBottomFirst [[8], [9], [7]], opCount := 1 } ∧
    ∃ detail, (plain.step c 0 (.operation .roll) far).outcome ()
      = .error ⟨.invalidStackOperation, detail⟩ := by
  intro c s far
  have hs : Execute.Measurable s.stack := ⟨by decide, by decide⟩
  have hfar : Execute.Measurable far.stack := ⟨by decide, by decide⟩
  have hshown : Operation.shown? .roll = some 2 := rfl
  obtain ⟨hsucceeds, -⟩ := Interpreter.stackOpcode_diagrams plain rfl [] .empty 0 hshown s rfl
    (by decide) hs ()
  obtain ⟨-, hfails⟩ := Interpreter.stackOpcode_diagrams plain rfl [] .empty 0 hshown far rfl
    (by decide) hfar ()
  have hdiagram : Execute.Diagram c 4 .roll ([7] :: [[8], [9]] ++ [[2]]) ([[8], [9]] ++ [[7]]) :=
    .roll rfl
  have hto : Execute.Rewrites c .roll { s with opCount := 1 }
      { s with opCount := 1, stack := .ofBottomFirst ([] ++ ([[8], [9]] ++ [[7]])) } :=
    .diagram rfl hdiagram
  refine ⟨rfl, rfl, hs, ?_, ?_⟩
  · exact (hsucceeds _).mpr ⟨hto, by decide⟩
  · exact (hfails .invalidStackOperation).mpr (.inl (.outOfRange (.inr rfl) rfl rfl (by decide)))

end SpendScript
