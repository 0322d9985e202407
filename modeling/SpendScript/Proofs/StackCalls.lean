import SpendScript.Proofs.Session
/-!
# Calls on a stack

Operations on a stack count from the top, and the elements lie in memory from the bottom up. A
place is a difference of lengths, which need not exist, and where an element is put in there is one
place more than where one is taken out. This file says what each call does to the elements as they
lie, for every length and every index, and that a call that fails does nothing.

What this file fixes:

* `Stack.exists_middle`, `Stack.exists_split` -- an index from the top finds its place from the
  bottom.
* `Stack.Call`, `Call.InRange` -- the calls, and when an index is in range.
* `Call.Means` -- what a call does, as a diagram with the elements bottom first. What is shown by a
  letter on both sides is not touched.
* `Call.perform_of_means`, `Call.exists_means`, `Call.perform_of_not_inRange` -- a call in range has
  a diagram and does what it says; any other fails and leaves the stack alone. The rest follows from
  these three.
* `Stack.unop_cons`, `Stack.binfn_cons`, `Stack.binop_cons` -- functions of the top elements, which
  take their operands off before they can fail.
* `Stack.calls_atomic` -- all of it together, with the laws between the calls.
-/

namespace SpendScript

namespace Stack

variable {α β : Type}

/-! ## 1. Places -/

section Places

variable {elements : List α} {i : Nat}

/-- So many elements lie above a place that is found from the bottom by a difference of lengths. -/
theorem exists_split (h : i ≤ elements.length) :
    ∃ below above : List α, above.length = i ∧ elements = below ++ above := by
  refine ⟨elements.take (elements.length - i), elements.drop (elements.length - i), ?_, ?_⟩
  · rw [List.length_drop]
    omega
  · exact (List.take_append_drop _ _).symm

/-- The element that has so many elements above it. -/
theorem exists_middle (h : i < elements.length) :
    ∃ (below : List α) (x : α) (above : List α), above.length = i ∧
      elements = below ++ x :: above := by
  obtain ⟨below, shown, hlength, helements⟩ := exists_split (i := i + 1) h
  cases shown with
  | nil => cases hlength
  | cons x above => exact ⟨below, x, above, Nat.succ.inj hlength, helements⟩

/-- Two elements, of which the first named has fewer above it. -/
theorem exists_pair {j : Nat} (hij : i < j) (hj : j < elements.length) :
    ∃ (below : List α) (x : α) (between : List α) (y : α) (above : List α), above.length = i ∧
      above.length + between.length + 1 = j ∧ elements = below ++ x :: between ++ y :: above := by
  obtain ⟨below, x, rest, rfl, rfl⟩ := exists_middle hj
  obtain ⟨between, y, above, rfl, rfl⟩ := exists_middle hij
  refine ⟨below, x, between, y, above, rfl, ?_, ?_⟩
  · rw [List.length_append, List.length_cons]
    omega
  · rw [List.append_assoc, List.cons_append]

theorem ofBottomFirst_bottomFirst (s : Stack α) : ofBottomFirst s.bottomFirst = s :=
  List.reverse_reverse s

theorem length_bottomFirst (s : Stack α) : s.bottomFirst.length = s.length := List.length_reverse

/-- An element with others above it, seen from the top. -/
theorem ofBottomFirst_middle (below : List α) (x : α) (above : List α) :
    ofBottomFirst (below ++ x :: above) = above.reverse ++ x :: ofBottomFirst below := by
  rw [ofBottomFirst_append, List.reverse_cons, List.append_assoc]
  rfl

theorem getElem?_above (x : α) (above : List α) (below : Stack α) :
    (above.reverse ++ x :: below)[above.length]? = some x := by
  rw [List.getElem?_append_right (Nat.le_of_eq List.length_reverse), List.length_reverse,
    Nat.sub_self]
  rfl

theorem getElem?_ofBottomFirst (below : List α) (x : α) (above : List α) :
    (ofBottomFirst (below ++ x :: above))[above.length]? = some x := by
  rw [ofBottomFirst_middle, getElem?_above]

end Places

/-! ## 2. What a call does -/

section Calls

variable {s : Stack α} {i j : Nat} {x y : α}

theorem get_of_getElem? (h : s[i]? = some x) : get i s = .ok x s := by
  unfold get
  rw [h]

theorem get_of_le (h : s.length ≤ i) : get i s = .error (.onStack (.access i s.length)) s := by
  unfold get
  rw [List.getElem?_eq_none h]

theorem remove_of_getElem? (h : s[i]? = some x) : remove i s = .ok x (s.eraseIdx i) := by
  unfold remove
  rw [h]

theorem remove_of_le (h : s.length ≤ i) :
    remove i s = .error (.onStack (.access i s.length)) s := by
  unfold remove
  rw [List.getElem?_eq_none h]

theorem repush_of_getElem? (h : s[i]? = some x) : repush i s = .ok () (x :: s) :=
  EStateM.bind_ok (get_of_getElem? h)

theorem moveToTop_of_getElem? (h : s[i]? = some x) :
    moveToTop i s = .ok () (x :: s.eraseIdx i) := EStateM.bind_ok (remove_of_getElem? h)

theorem swap_of_getElem? (hx : s[i]? = some x) (hy : s[j]? = some y) :
    swap i j s = .ok () ((s.set i y).set j x) :=
  (EStateM.bind_ok (get_of_getElem? hx)).trans (EStateM.bind_ok (get_of_getElem? hy))

/-- Which of two elements is named first makes no difference. -/
theorem swap_comm (hx : s[i]? = some x) (hy : s[j]? = some y) : swap j i s = swap i j s := by
  rw [swap_of_getElem? hx hy, swap_of_getElem? hy hx]
  by_cases hij : i = j
  · subst hij
    rw [hx] at hy
    cases hy
    rfl
  · rw [List.set_comm x y (Ne.symm hij)]

variable (below above : List α)

/-- What is taken out leaves the others in their order. -/
theorem remove_middle (x : α) : remove above.length (ofBottomFirst (below ++ x :: above))
    = .ok x (ofBottomFirst (below ++ above)) := by
  rw [remove_of_getElem? (getElem?_ofBottomFirst below x above), ofBottomFirst_middle,
    ofBottomFirst_append, ← @List.length_reverse _ above,
    List.eraseIdx_append_of_length_le (Nat.le_refl _), Nat.sub_self]
  rfl

theorem insertIdx_length_append (before after : List α) (x : α) :
    (before ++ after).insertIdx before.length x = before ++ x :: after := by
  induction before with
  | nil => rfl
  | cons y before ih => exact congrArg (y :: ·) ih

/-- What is put in leaves the others in their order. -/
theorem insert_middle (x : α) : insert above.length x (ofBottomFirst (below ++ above))
    = .ok () (ofBottomFirst (below ++ x :: above)) := by
  have hreach : above.length ≤ (ofBottomFirst (below ++ above)).length := by
    rw [length_ofBottomFirst, List.length_append]
    exact Nat.le_add_left _ _
  unfold insert
  rw [if_pos hreach, ofBottomFirst_middle, ofBottomFirst_append,
    ← @List.length_reverse _ above, insertIdx_length_append]

/-- The two elements that change places, seen from the top. -/
theorem getElem?_pair (x : α) (between : List α) (y : α) :
    (ofBottomFirst (below ++ x :: between ++ y :: above))[above.length]? = some y ∧
    (ofBottomFirst (below ++ x :: between ++ y :: above))[above.length + between.length + 1]?
      = some x := by
  have hlower : (between ++ y :: above).length = above.length + between.length + 1 := by
    rw [List.length_append, List.length_cons]
    omega
  have hx := getElem?_ofBottomFirst below x (between ++ y :: above)
  rw [hlower] at hx
  refine ⟨getElem?_ofBottomFirst (below ++ x :: between) y above, ?_⟩
  rw [List.append_assoc, List.cons_append]
  exact hx

/-- Two elements change places, and those between them stay. -/
theorem swap_middle (x : α) (between : List α) (y : α) :
    swap above.length (above.length + between.length + 1)
        (ofBottomFirst (below ++ x :: between ++ y :: above))
      = .ok () (ofBottomFirst (below ++ y :: between ++ x :: above)) := by
  obtain ⟨hy, hx⟩ := getElem?_pair below above x between y
  rw [swap_of_getElem? hy hx]
  simp only [ofBottomFirst_middle]
  congr 1
  generalize ofBottomFirst below = lower
  rw [← @List.length_reverse _ above, ← @List.length_reverse _ between]
  generalize above.reverse = upper
  generalize between.reverse = middle
  have hlower : upper.length + middle.length + 1 - upper.length = middle.length + 1 := by omega
  rw [List.set_append_right _ _ (Nat.le_refl _), Nat.sub_self, List.set_cons_zero,
    List.set_append_right _ _ (by omega), hlower, List.set_cons_succ,
    List.set_append_right _ _ (Nat.le_refl _), Nat.sub_self, List.set_cons_zero]

end Calls

/-! ## 3. Calls and their diagrams -/

/-- A call of an operation that counts from the top. -/
inductive Call (α : Type) where
  | checkLen (needed : Nat)
  | get (i : Nat)
  | remove (i : Nat)
  | insert (i : Nat) (x : α)
  | swap (i j : Nat)
  | moveToTop (i : Nat)
  | repush (i : Nat)
  | pop
  | last
  | modifyLast (f : α → α)
  | splitLast

namespace Call

/-- A call, with the elements that it hands out. What is under the top is handed out bottom
first. -/
def perform : Call α → StackOp α (List α)
  | checkLen needed => do
    Stack.checkLen needed
    return []
  | get i => return [← Stack.get i]
  | remove i => return [← Stack.remove i]
  | insert i x => do
    Stack.insert i x
    return []
  | swap i j => do
    Stack.swap i j
    return []
  | moveToTop i => do
    Stack.moveToTop i
    return []
  | repush i => do
    Stack.repush i
    return []
  | pop => return [← Stack.pop]
  | last => return [← Stack.last]
  | modifyLast f => do
    Stack.modifyLast f
    return []
  | splitLast => do
    let (x, below) ← Stack.splitLast
    return x :: below.bottomFirst

/-- Whether the indexes of a call are in range, in a stack of so many elements. -/
def InRange (count : Nat) : Call α → Prop
  | checkLen needed => needed ≤ count
  | get i | remove i | moveToTop i | repush i => i < count
  | insert i _ => i ≤ count
  | swap i j => i < count ∧ j < count
  | pop | last | modifyLast _ | splitLast => 0 < count

/-- **The diagrams**: the elements before, those that are handed out, and the elements after, bottom
first. An index is the number of elements above a place. -/
inductive Means : Call α → (before given after : List α) → Prop
  | checkLen {needed : Nat} {all : List α} (h : needed ≤ all.length) :
      Means (.checkLen needed) all [] all
  | get {below : List α} {x : α} {above : List α} :
      Means (.get above.length) (below ++ x :: above) [x] (below ++ x :: above)
  | remove {below : List α} {x : α} {above : List α} :
      Means (.remove above.length) (below ++ x :: above) [x] (below ++ above)
  | insert {below : List α} {x : α} {above : List α} :
      Means (.insert above.length x) (below ++ above) [] (below ++ x :: above)
  | swap_self {i : Nat} {all : List α} (h : i < all.length) : Means (.swap i i) all [] all
  | swap_down {below : List α} {x : α} {between : List α} {y : α} {above : List α} :
      Means (.swap above.length (above.length + between.length + 1))
        (below ++ x :: between ++ y :: above) [] (below ++ y :: between ++ x :: above)
  | swap_up {below : List α} {x : α} {between : List α} {y : α} {above : List α} :
      Means (.swap (above.length + between.length + 1) above.length)
        (below ++ x :: between ++ y :: above) [] (below ++ y :: between ++ x :: above)
  | moveToTop {below : List α} {x : α} {above : List α} :
      Means (.moveToTop above.length) (below ++ x :: above) [] (below ++ above ++ [x])
  | repush {below : List α} {x : α} {above : List α} :
      Means (.repush above.length) (below ++ x :: above) [] (below ++ x :: above ++ [x])
  | pop {below : List α} {x : α} : Means .pop (below ++ [x]) [x] below
  | last {below : List α} {x : α} : Means .last (below ++ [x]) [x] (below ++ [x])
  | modifyLast {f : α → α} {below : List α} {x : α} :
      Means (.modifyLast f) (below ++ [x]) [] (below ++ [f x])
  | splitLast {below : List α} {x : α} :
      Means .splitLast (below ++ [x]) (x :: below) (below ++ [x])

variable {call : Call α} {before given after : List α} {s t : Stack α}

theorem ofBottomFirst_concat (below : List α) (x : α) :
    ofBottomFirst (below ++ [x]) = x :: ofBottomFirst below := ofBottomFirst_append below [x]

/-- **A call does what its diagram says.** -/
theorem perform_of_means (h : call.Means before given after) :
    call.perform (ofBottomFirst before) = .ok given (ofBottomFirst after) := by
  cases h with
  | checkLen h =>
    exact EStateM.bind_ok (checkLen_of_le (by rwa [length_ofBottomFirst]))
  | get => exact EStateM.bind_ok (get_of_getElem? (getElem?_ofBottomFirst _ _ _))
  | remove => exact EStateM.bind_ok (remove_middle _ _ _)
  | insert => exact EStateM.bind_ok (insert_middle _ _ _)
  | @swap_self i h =>
    have hi : i < (ofBottomFirst before).length := by rwa [length_ofBottomFirst]
    have hget := List.getElem?_eq_getElem hi
    have hswap : Stack.swap i i (ofBottomFirst before) = .ok () (ofBottomFirst before) := by
      rw [swap_of_getElem? hget hget, List.set_set, List.set_getElem_self]
    exact EStateM.bind_ok hswap
  | swap_down => exact EStateM.bind_ok (swap_middle _ _ _ _ _)
  | @swap_up below x between y above =>
    obtain ⟨hy, hx⟩ := getElem?_pair below above x between y
    exact EStateM.bind_ok ((swap_comm hy hx).trans (swap_middle _ _ _ _ _))
  | @moveToTop below x above =>
    rw [ofBottomFirst_concat]
    exact EStateM.bind_ok (EStateM.bind_ok (remove_middle _ _ _))
  | repush =>
    rw [ofBottomFirst_concat]
    exact EStateM.bind_ok (repush_of_getElem? (getElem?_ofBottomFirst _ _ _))
  | pop | last | modifyLast =>
    simp only [ofBottomFirst_concat]
    rfl
  | @splitLast below x =>
    rw [ofBottomFirst_concat]
    show EStateM.Result.ok (x :: (ofBottomFirst below).bottomFirst) _ = _
    rw [bottomFirst_ofBottomFirst]

/-- **A call in range has a diagram.** -/
theorem exists_means (h : call.InRange before.length) :
    ∃ given after, call.Means before given after := by
  have htop : 0 < before.length → ∃ below x, before = below ++ [x] := by
    intro hpos
    obtain ⟨below, x, above, habove, hbefore⟩ := exists_middle hpos
    rw [List.length_eq_zero_iff.mp habove] at hbefore
    exact ⟨below, x, hbefore⟩
  cases call with
  | checkLen needed => exact ⟨_, _, .checkLen h⟩
  | get i | remove i | moveToTop i | repush i =>
    obtain ⟨below, x, above, rfl, rfl⟩ := exists_middle h
    exact ⟨_, _, by constructor⟩
  | insert i x =>
    obtain ⟨below, above, rfl, rfl⟩ := exists_split h
    exact ⟨_, _, .insert⟩
  | swap i j =>
    obtain ⟨hi, hj⟩ := h
    rcases Nat.lt_trichotomy i j with hlt | rfl | hlt
    · obtain ⟨below, x, between, y, above, rfl, rfl, rfl⟩ := exists_pair hlt hj
      exact ⟨_, _, .swap_down⟩
    · exact ⟨_, _, .swap_self hi⟩
    · obtain ⟨below, x, between, y, above, rfl, rfl, rfl⟩ := exists_pair hlt hi
      exact ⟨_, _, .swap_up⟩
  | pop | last | modifyLast f | splitLast =>
    obtain ⟨below, x, rfl⟩ := htop h
    exact ⟨_, _, by constructor⟩

/-- **A call out of range fails, and leaves the stack alone.** -/
theorem perform_of_not_inRange (h : ¬ call.InRange s.length) :
    ∃ detail, call.perform s = .error (.onStack detail) s := by
  cases call with
  | checkLen needed => exact ⟨_, EStateM.bind_error (checkLen_of_lt (Nat.not_le.mp h))⟩
  | get i => exact ⟨_, EStateM.bind_error (get_of_le (Nat.not_lt.mp h))⟩
  | remove i => exact ⟨_, EStateM.bind_error (remove_of_le (Nat.not_lt.mp h))⟩
  | insert i x => exact ⟨_, EStateM.bind_error (if_neg h)⟩
  | swap i j =>
    rcases Nat.lt_or_ge i s.length with hi | hi
    · have hj : s.length ≤ j := Nat.not_lt.mp fun hj => h ⟨hi, hj⟩
      have hget := get_of_getElem? (List.getElem?_eq_getElem hi)
      have hswap : Stack.swap i j s = .error (.onStack (.access j s.length)) s :=
        (EStateM.bind_ok hget).trans (EStateM.bind_error (get_of_le hj))
      exact ⟨_, EStateM.bind_error hswap⟩
    · exact ⟨_, EStateM.bind_error (EStateM.bind_error (get_of_le hi))⟩
  | moveToTop i =>
    exact ⟨_, EStateM.bind_error (EStateM.bind_error (remove_of_le (Nat.not_lt.mp h)))⟩
  | repush i => exact ⟨_, EStateM.bind_error (EStateM.bind_error (get_of_le (Nat.not_lt.mp h)))⟩
  | pop | last | modifyLast f | splitLast =>
    obtain rfl : s = [] := List.length_eq_zero_iff.mp (Nat.eq_zero_of_not_pos h)
    exact ⟨_, rfl⟩

/-- A call in range succeeds. -/
theorem perform_of_inRange (h : call.InRange s.length) :
    ∃ given after, call.Means s.bottomFirst given after ∧
      call.perform s = .ok given (ofBottomFirst after) := by
  rw [← length_bottomFirst] at h
  obtain ⟨given, after, hmeans⟩ := exists_means h
  have hperform := perform_of_means hmeans
  rw [ofBottomFirst_bottomFirst] at hperform
  exact ⟨given, after, hmeans, hperform⟩

/-- **A call succeeds exactly as its diagram says.** -/
theorem perform_eq_ok_iff :
    call.perform s = .ok given t ↔ call.Means s.bottomFirst given t.bottomFirst := by
  constructor
  · intro h
    by_cases hrange : call.InRange s.length
    · obtain ⟨given, after, hmeans, hperform⟩ := perform_of_inRange hrange
      rw [h] at hperform
      cases hperform
      rwa [bottomFirst_ofBottomFirst]
    · obtain ⟨detail, hfails⟩ := perform_of_not_inRange hrange
      rw [h] at hfails
      cases hfails
  · intro h
    have hperform := perform_of_means h
    rwa [ofBottomFirst_bottomFirst, ofBottomFirst_bottomFirst] at hperform

/-- **A call fails exactly when it is out of range**, and then nothing has happened. -/
theorem perform_eq_error_iff :
    (∃ e t, call.perform s = .error e t) ↔ ¬ call.InRange s.length := by
  constructor
  · rintro ⟨e, t, h⟩ hrange
    obtain ⟨given, after, _, hperform⟩ := perform_of_inRange hrange
    rw [h] at hperform
    cases hperform
  · intro h
    obtain ⟨detail, hfails⟩ := perform_of_not_inRange h
    exact ⟨_, _, hfails⟩

theorem unchanged_of_error {e : Failure} (h : call.perform s = .error e t) :
    e.kind = .invalidStackOperation ∧ t = s := by
  obtain ⟨detail, hfails⟩ := perform_of_not_inRange (perform_eq_error_iff.mp ⟨e, t, h⟩)
  rw [h] at hfails
  cases hfails
  exact ⟨rfl, rfl⟩

/-- The diagram of an exchange is also read backwards. -/
theorem Means.swap_symm {i j : Nat} (h : Means (.swap i j) before given after) :
    Means (.swap i j) after [] before := by
  cases h with
  | swap_self h => exact .swap_self h
  | swap_down => exact .swap_down
  | swap_up => exact .swap_up

end Call

/-! ## 4. Laws between the calls -/

/-- What was put in is found where it was put, and without it the stack is as before. -/
theorem remove_of_insert {i : Nat} {x : α} {s t : Stack α} (h : insert i x s = .ok () t) :
    remove i t = .ok x s := by
  unfold insert at h
  split at h
  · next hreach =>
    cases h
    have hfound : (s.insertIdx i x)[i]? = some x := by
      rw [List.getElem?_insertIdx_self, if_pos hreach]
    rw [remove_of_getElem? hfound, List.eraseIdx_insertIdx_self]
  · cases h

/-- An exchange made twice is none. -/
theorem swap_of_swap {i j : Nat} {s t : Stack α} (h : swap i j s = .ok () t) :
    swap i j t = .ok () s := by
  have hthere : (Call.swap i j).perform s = .ok [] t := EStateM.bind_ok h
  have hback : (Call.swap i j).perform t = .ok [] s :=
    Call.perform_eq_ok_iff.mpr (Call.perform_eq_ok_iff.mp hthere).swap_symm
  obtain ⟨_, r, hswap, hend⟩ := EStateM.eq_ok_of_bind hback
  cases hend
  exact hswap

/-! ## 5. Functions of the top elements -/

section Functions

variable {x x1 x2 : α} {below s : Stack α}

/-- The operand is taken off, and then the function can fail. -/
theorem unop_cons (f : α → Except Failure α) : unop f (x :: below) =
    match f x with
    | .ok y => .ok () (y :: below)
    | .error e => .error e below := by
  show (lift (f x) >>= push) below = _
  cases f x <;> rfl

theorem unop_of_nil (f : α → Except Failure α) :
    unop f ([] : Stack α) = .error (.onStack .popFromEmpty) [] := rfl

/-- Both operands are taken off, and then the function can fail. -/
theorem binfn_cons (f : α → α → Except Failure β) : binfn f (x2 :: x1 :: below) =
    match f x1 x2 with
    | .ok y => .ok y below
    | .error e => .error e below := by
  have hlen : checkLen 2 (x2 :: x1 :: below) = .ok () (x2 :: x1 :: below) :=
    checkLen_of_le (Nat.le_add_left 2 below.length)
  refine (EStateM.bind_ok hlen).trans ?_
  show lift (f x1 x2) below = _
  cases f x1 x2 <;> rfl

theorem binfn_of_lt (f : α → α → Except Failure β) (h : s.length < 2) :
    binfn f s = .error (.onStack (.needed 2 s.length)) s := EStateM.bind_error (checkLen_of_lt h)

theorem binop_cons (f : α → α → Except Failure α) : binop f (x2 :: x1 :: below) =
    match f x1 x2 with
    | .ok y => .ok () (y :: below)
    | .error e => .error e below := by
  have hboth : binfn f (x2 :: x1 :: below) = _ := binfn_cons f
  cases hf : f x1 x2 with
  | ok y =>
    rw [hf] at hboth
    exact EStateM.bind_ok hboth
  | error e =>
    rw [hf] at hboth
    exact EStateM.bind_error hboth

theorem binop_of_lt (f : α → α → Except Failure α) (h : s.length < 2) :
    binop f s = .error (.onStack (.needed 2 s.length)) s := EStateM.bind_error (binfn_of_lt f h)

end Functions

/-- **Calls on a stack do what their diagrams say, or nothing.** A call fails exactly when an index
is out of range, with one kind of failure and with the stack as it was; it succeeds exactly as its
diagram says. What is put in can be taken out again, moving to the top is taking out and putting on
top, and an exchange made twice is none. A function of the top elements that finds too few leaves
the stack as it was; when the function itself fails its operands are gone, and nothing else. -/
theorem calls_atomic :
    (∀ (call : Call α) (s : Stack α),
      ((∃ e t, call.perform s = .error e t) ↔ ¬ call.InRange s.length) ∧
      (∀ e t, call.perform s = .error e t → e.kind = .invalidStackOperation ∧ t = s) ∧
      (∀ given t, call.perform s = .ok given t ↔ call.Means s.bottomFirst given t.bottomFirst)) ∧
    (∀ (i : Nat) (x : α) (s t : Stack α), insert i x s = .ok () t → remove i t = .ok x s) ∧
    (∀ (i : Nat) (s : Stack α), moveToTop i s = (remove i >>= push) s) ∧
    (∀ (i j : Nat) (s t : Stack α), swap i j s = .ok () t → swap i j t = .ok () s) ∧
    (∀ f : α → Except Failure α,
      (∃ e, unop f [] = .error e [] ∧ e.kind = .invalidStackOperation) ∧
      ∀ x below, unop f (x :: below) =
        match f x with
        | .ok y => .ok () (y :: below)
        | .error e => .error e below) ∧
    (∀ f : α → α → Except Failure β,
      (∀ s, s.length < 2 → ∃ e, binfn f s = .error e s ∧ e.kind = .invalidStackOperation) ∧
      ∀ x1 x2 below, binfn f (x2 :: x1 :: below) =
        match f x1 x2 with
        | .ok y => .ok y below
        | .error e => .error e below) ∧
    (∀ f : α → α → Except Failure α,
      (∀ s, s.length < 2 → ∃ e, binop f s = .error e s ∧ e.kind = .invalidStackOperation) ∧
      ∀ x1 x2 below, binop f (x2 :: x1 :: below) =
        match f x1 x2 with
        | .ok y => .ok () (y :: below)
        | .error e => .error e below) :=
  ⟨fun _ _ => ⟨Call.perform_eq_error_iff, fun _ _ => Call.unchanged_of_error,
      fun _ _ => Call.perform_eq_ok_iff⟩,
    fun _ _ _ _ => remove_of_insert,
    fun _ _ => rfl,
    fun _ _ _ _ => swap_of_swap,
    fun f => ⟨⟨_, unop_of_nil f, rfl⟩, fun _ _ => unop_cons f⟩,
    fun f => ⟨fun _ h => ⟨_, binfn_of_lt f h, rfl⟩, fun _ _ _ => binfn_cons f⟩,
    fun f => ⟨fun _ h => ⟨_, binop_of_lt f h, rfl⟩, fun _ _ _ => binop_cons f⟩⟩

/-! ### Three elements -/

namespace Three

/-- Three elements, the top first. -/
def stack : Stack Nat := [30, 20, 10]

/-- The difference of two elements, where there is one. -/
def difference (x1 x2 : Nat) : Except Failure Nat :=
  if x2 ≤ x1 then .ok (x1 - x2) else .error (.plain .scriptNum)

end Three

open Three in
/-- Three elements have a fourth place to put something in, but no fifth. The top and the bottom
change places and change back. A difference that does not exist costs its two operands, and one
element alone is not an operand. -/
theorem calls_atomic_three :
    (∃ e, (Call.insert 4 7).perform stack = .error e stack ∧
      e.kind = .invalidStackOperation) ∧
    insert 3 7 stack = .ok () [30, 20, 10, 7] ∧ remove 3 [30, 20, 10, 7] = .ok 7 stack ∧
    swap 0 2 stack = .ok () [10, 20, 30] ∧ swap 0 2 [10, 20, 30] = .ok () stack ∧
    binop difference stack = .error (.plain .scriptNum) [10] ∧
    (∃ e, binfn difference [30] = .error e [30] ∧ e.kind = .invalidStackOperation) ∧
    ∃ e, binop difference [30] = .error e [30] ∧ e.kind = .invalidStackOperation := by
  obtain ⟨hcall, hinsert, _, hswap, _, hbinfn, hbinop⟩ := @calls_atomic Nat Nat
  obtain ⟨hfails, hunchanged, _⟩ := hcall (.insert 4 7) stack
  have hrange : ¬ (Call.insert 4 7).InRange stack.length := show ¬ 4 ≤ 3 by decide
  obtain ⟨e, t, he⟩ := hfails.mpr hrange
  obtain ⟨hkind, rfl⟩ := hunchanged e t he
  exact ⟨⟨e, he, hkind⟩, rfl, hinsert 3 7 stack _ rfl, rfl, hswap 0 2 stack _ rfl,
    (hbinop difference).2 20 30 [10], (hbinfn difference).1 [30] (by decide),
    (hbinop difference).1 [30] (by decide)⟩

end Stack

end SpendScript
