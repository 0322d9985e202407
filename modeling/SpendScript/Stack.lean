import SpendScript.Failure
/-!
# Stacks

What this file fixes:

* `Stack` -- a list with the top first, so that an index counts from the top.
* `StackOp` -- an operation on a stack. It ends with a result or a failure, and either way with a
  stack: what a failed operation leaves can be seen.
* The operations. Those with an index fail when it is out of range and then leave the stack as it
  was; `unop`, `binfn` and `binop` take their operands off before the function they are given can
  fail.
-/

namespace SpendScript

/-- A list with the top first. -/
abbrev Stack (α : Type) := List α

/-- An operation on a stack that ends with a result or a failure, and with a stack. -/
abbrev StackOp (α β : Type) := EStateM Failure (Stack α) β

namespace Stack

variable {α β : Type}

/-- The stack whose elements are given bottom first. -/
def ofBottomFirst (elements : List α) : Stack α := elements.reverse

/-- The elements, bottom first. -/
def bottomFirst (s : Stack α) : List α := s.reverse

/-! ## 1. Looking -/

/-- Fails unless there are that many elements. -/
def checkLen (needed : Nat) : StackOp α Unit := fun s =>
  if needed ≤ s.length then .ok () s else .error (.onStack (.needed needed s.length)) s

/-- How many elements there are. -/
def len : StackOp α Nat := fun s => .ok s.length s

/-- The element that many places below the top. -/
def get (i : Nat) : StackOp α α := fun s =>
  match s[i]? with
  | some x => .ok x s
  | none => .error (.onStack (.access i s.length)) s

/-- The top. -/
def last : StackOp α α := get 0

/-- The top, and what is under it. -/
def splitLast : StackOp α (α × Stack α) := fun s =>
  match s with
  | x :: below => .ok (x, below) s
  | [] => .error (.onStack .emptyStack) s

/-! ## 2. Moving elements -/

/-- Puts an element on the top. -/
def push (x : α) : StackOp α Unit := fun s => .ok () (x :: s)

/-- Takes the top off. -/
def pop : StackOp α α := fun s =>
  match s with
  | x :: below => .ok x below
  | [] => .error (.onStack .popFromEmpty) s

/-- Changes the top. -/
def modifyLast (f : α → α) : StackOp α Unit := fun s =>
  match s with
  | x :: below => .ok () (f x :: below)
  | [] => .error (.onStack .emptyStack) s

/-- Takes out the element that many places below the top. -/
def remove (i : Nat) : StackOp α α := fun s =>
  match s[i]? with
  | some x => .ok x (s.eraseIdx i)
  | none => .error (.onStack (.access i s.length)) s

/-- Puts an element where it ends up that many places below the top. -/
def insert (i : Nat) (x : α) : StackOp α Unit := fun s =>
  if i ≤ s.length then .ok () (s.insertIdx i x) else .error (.onStack (.insertion i s.length)) s

/-- Exchanges two elements. -/
def swap (i j : Nat) : StackOp α Unit := do
  let x ← get i
  let y ← get j
  fun s => .ok () ((s.set i y).set j x)

/-- Moves the element that many places below the top to the top. -/
def moveToTop (i : Nat) : StackOp α Unit := do push (← remove i)

/-- Puts a copy of the element that many places below the top on the top. -/
def repush (i : Nat) : StackOp α Unit := do push (← get i)

/-! ## 3. Applying functions -/

/-- A computation that does not look at the stack. -/
def lift (x : Except Failure β) : StackOp α β := fun s =>
  match x with
  | .ok y => .ok y s
  | .error e => .error e s

/-- Replaces the top by a function of it. -/
def unop (f : α → Except Failure α) : StackOp α Unit := do
  let x ← pop
  push (← lift (f x))

/-- Takes the two top elements off and applies a function to them, the lower one first. -/
def binfn (f : α → α → Except Failure β) : StackOp α β := do
  checkLen 2
  let x2 ← pop
  let x1 ← pop
  lift (f x1 x2)

/-- Replaces the two top elements by a function of them, the lower one first. -/
def binop (f : α → α → Except Failure α) : StackOp α Unit := do push (← binfn f)

/-! ## 4. Small laws -/

@[simp] theorem bottomFirst_ofBottomFirst (elements : List α) :
    bottomFirst (ofBottomFirst elements) = elements := List.reverse_reverse elements

@[simp] theorem length_ofBottomFirst (elements : List α) :
    (ofBottomFirst elements).length = elements.length := List.length_reverse

/-- What comes last is on the top. -/
theorem ofBottomFirst_append (elements above : List α) :
    ofBottomFirst (elements ++ above) = above.reverse ++ ofBottomFirst elements :=
  List.reverse_append

@[simp] theorem push_apply (x : α) (s : Stack α) : push x s = .ok () (x :: s) := rfl

@[simp] theorem pop_cons (x : α) (s : Stack α) : pop (x :: s) = .ok x s := rfl

@[simp] theorem pop_nil : pop ([] : Stack α) = .error (.onStack .popFromEmpty) [] := rfl

@[simp] theorem last_cons (x : α) (s : Stack α) : last (x :: s) = .ok x (x :: s) := rfl

theorem checkLen_of_le {needed : Nat} {s : Stack α} (h : needed ≤ s.length) :
    checkLen needed s = .ok () s := if_pos h

theorem checkLen_of_lt {needed : Nat} {s : Stack α} (h : s.length < needed) :
    checkLen needed s = .error (.onStack (.needed needed s.length)) s :=
  if_neg (Nat.not_le.mpr h)

end Stack

end SpendScript
