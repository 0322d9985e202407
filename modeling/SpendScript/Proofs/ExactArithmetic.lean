import Mathlib.Data.List.Basic
import SpendScript.Proofs.Effect
import SpendScript.Proofs.NumberEncoding
/-!
# Opcodes on numbers compute with integers

Twenty opcodes share a few shapes: operands are taken off, decoded, handed to a function in some
order, and what it gives is written back, if it fits. This file has the integer that each of them
stands for in a table that knows nothing of stacks or of 64 bits, and says that the opcodes compute
it, whatever the width of an operand.

What this file fixes:

* `NumericResult`, `NumericResult.leaves` -- what integers come to, and what of it a stack can hold.
* `Formula.ofOperation?` -- the table: the opcodes on numbers as functions of integers, the operands
  in the order in which they were pushed.
* `Execute.Computes` -- an operation on a stack computes a formula; `Execute.Computes.unary` and its
  like say what each shape of opcode computes.
* `Formula.staysSmall_ofOperation?` -- no formula of the table needs more than one bit beyond its
  operands.
* `Interpreter.arithmetic_exact` -- every opcode on numbers computes the formula of the table, fails
  where an operand is no number, and overflows under no limit of seven bytes or less.
-/

namespace SpendScript

variable {μ : Type}

/-! ## 1. The integers that opcodes stand for -/

/-- What integers come to: a number, a truth value, or a condition that has to hold. -/
inductive NumericResult where
  | number (v : Int)
  | truth (holds : Bool)
  | demand (holds : Bool)
  deriving DecidableEq, Repr

/-- What is put on the stack: the shortest encoding of a number that fits 64 bits, one or the empty
string for a truth value, and nothing for a condition that holds. -/
def NumericResult.leaves : NumericResult → Except Failure (List Bytes)
  | number v => if ScriptNumber.Fits v then .ok [ScriptNumber.encode v] else .error Execute.overflow
  | truth holds => .ok [ofBool holds]
  | demand holds => if holds then .ok [] else .error (.plain .numEqualVerify)

/-- A function of one, two or three integers, the one that was pushed first in front. -/
inductive Formula where
  | unary (f : Int → NumericResult)
  | binary (f : Int → Int → NumericResult)
  | ternary (f : Int → Int → Int → NumericResult)

namespace Formula

/-- How many numbers it takes. -/
def arity : Formula → Nat
  | unary _ => 1
  | binary _ => 2
  | ternary _ => 3

/-- What its result leaves. It has none where the numbers are too few or too many. -/
def leaves : Formula → List Int → Except Failure (List Bytes)
  | unary f, [a] => (f a).leaves
  | binary f, [a, b] => (f a b).leaves
  | ternary f, [a, b, c] => (f a b c).leaves
  | formula, numbers => .error (.onStack (.needed formula.arity numbers.length))

/-- **The integer function of each opcode on numbers.** -/
def ofOperation? : Operation → Option Formula
  | .add1 => some (unary fun a => .number (a + 1))
  | .sub1 => some (unary fun a => .number (a - 1))
  | .negate => some (unary fun a => .number (-a))
  | .abs => some (unary fun a => .number a.natAbs)
  | .not => some (unary fun a => .truth (a = 0))
  | .notEqual0 => some (unary fun a => .truth (a ≠ 0))
  | .add => some (binary fun a b => .number (a + b))
  | .sub => some (binary fun a b => .number (a - b))
  | .boolAnd => some (binary fun a b => .truth (a ≠ 0 ∧ b ≠ 0))
  | .boolOr => some (binary fun a b => .truth (a ≠ 0 ∨ b ≠ 0))
  | .numEqual => some (binary fun a b => .truth (a = b))
  | .numEqualVerify => some (binary fun a b => .demand (a = b))
  | .numNotEqual => some (binary fun a b => .truth (a ≠ b))
  | .lessThan => some (binary fun a b => .truth (a < b))
  | .greaterThan => some (binary fun a b => .truth (a > b))
  | .lessThanOrEqual => some (binary fun a b => .truth (a ≤ b))
  | .greaterThanOrEqual => some (binary fun a b => .truth (a ≥ b))
  | .min => some (binary fun a b => .number (min a b))
  | .max => some (binary fun a b => .number (max a b))
  | .within => some (ternary fun a low high => .truth (low ≤ a ∧ a < high))
  | _ => none

end Formula

/-! ## 2. What each shape of opcode computes -/

namespace Execute

variable {c : Context}

/-- **An operation on a stack computes a formula**: its operands are decoded, and what the result
leaves takes their place. -/
def Computes (c : Context) (op : StackOp Bytes Unit) (formula : Formula) : Prop :=
  ∀ (s : State) (operands : List Bytes) (below : Stack Bytes),
    operands.length = formula.arity → s.stack = operands.reverse ++ below →
    s.onStack op = (operands.mapM c.number >>= formula.leaves).map
      fun left => { s with stack := left.reverse ++ below }

theorem fits_of_number {x : Bytes} {a : Int} (h : c.number x = .ok a) : ScriptNumber.Fits a :=
  ScriptNumber.fits_of_decode (decode_of_number h)

/-- What the test for a range does where its operands are there. -/
theorem onStack_within {s : State} {x1 x2 x3 : Bytes} {below : Stack Bytes}
    (h : s.stack = x3 :: x2 :: x1 :: below) : s.onStack (within c) = do
      let a ← c.number x1
      let low ← c.number x2
      let high ← c.number x3
      return { s with stack := ofBool (decide (low ≤ a) && decide (a < high)) :: below } := by
  obtain ⟨stack, alt, opCount, conditions, beginCode⟩ := s
  obtain rfl : stack = x3 :: x2 :: x1 :: below := h
  have hlen := Stack.checkLen_of_le (s := x3 :: x2 :: x1 :: below)
    (Nat.le_add_left 3 below.length)
  unfold within
  rw [State.onStack_bind_ok hlen]
  -- an element that is looked up is there, so that only decoding it can fail
  show State.onStack _ (Stack.lift (c.number x1) >>= _) = _
  rw [State.onStack_lift_bind]
  congr 1
  funext a
  show State.onStack _ (Stack.lift (c.number x2) >>= _) = _
  rw [State.onStack_lift_bind]
  congr 1
  funext low
  exact State.onStack_lift_bind _ _

theorem fits_min {a b : Int} (ha : ScriptNumber.Fits a) (hb : ScriptNumber.Fits b) :
    ScriptNumber.Fits (min a b) := by
  unfold ScriptNumber.Fits at *
  omega

theorem fits_max {a b : Int} (ha : ScriptNumber.Fits a) (hb : ScriptNumber.Fits b) :
    ScriptNumber.Fits (max a b) := by
  unfold ScriptNumber.Fits at *
  omega

namespace Computes

/-- One operand, and an element made of its number. -/
theorem unop {k : Int → Except Failure Bytes} {f : Int → NumericResult}
    (hk : ∀ a, (f a).leaves = (k a).map fun y => [y]) :
    Computes c (Stack.unop fun x => c.number x >>= k) (.unary f) := by
  intro s operands below hcount hstack
  obtain ⟨x, rfl⟩ := List.length_eq_one_iff.mp hcount
  have htop : s.stack = x :: below := hstack
  rw [State.onStack_unop htop, List.mapM_cons, List.mapM_nil]
  cases c.number x with
  | error e => rfl
  | ok a =>
    show (k a).map _ = ((f a).leaves).map _
    rw [hk]
    cases k a <;> rfl

/-- Two operands, and an element made of their numbers. -/
theorem binop {k : Int → Int → Except Failure Bytes} {f : Int → Int → NumericResult}
    (hk : ∀ a b, ScriptNumber.Fits a → ScriptNumber.Fits b →
      (f a b).leaves = (k a b).map fun y => [y]) :
    Computes c (Stack.binop fun x1 x2 => c.number x1 >>= fun a => c.number x2 >>= k a)
      (.binary f) := by
  intro s operands below hcount hstack
  obtain ⟨x1, x2, rfl⟩ := List.length_eq_two.mp hcount
  have htop : s.stack = x2 :: x1 :: below := hstack
  rw [State.onStack_binop htop, List.mapM_cons, List.mapM_cons, List.mapM_nil]
  cases ha : c.number x1 with
  | error e => rfl
  | ok a =>
    cases hb : c.number x2 with
    | error e => rfl
    | ok b =>
      show (k a b).map _ = ((f a b).leaves).map _
      rw [hk a b (fits_of_number ha) (fits_of_number hb)]
      cases k a b <;> rfl

/-- Two operands, and a condition on their numbers. -/
theorem binfn {k : Int → Int → Except Failure Unit} {f : Int → Int → NumericResult}
    (hk : ∀ a b, (f a b).leaves = (k a b).map fun _ => []) :
    Computes c (Stack.binfn fun x1 x2 => c.number x1 >>= fun a => c.number x2 >>= k a)
      (.binary f) := by
  intro s operands below hcount hstack
  obtain ⟨x1, x2, rfl⟩ := List.length_eq_two.mp hcount
  have htop : s.stack = x2 :: x1 :: below := hstack
  rw [State.onStack_binfn htop, List.mapM_cons, List.mapM_cons, List.mapM_nil]
  cases c.number x1 with
  | error e => rfl
  | ok a =>
    cases c.number x2 with
    | error e => rfl
    | ok b =>
      show (k a b).map _ = ((f a b).leaves).map _
      rw [hk]
      cases k a b <;> rfl

theorem leaves_number (v : Int) :
    (NumericResult.number v).leaves = (numberResult (ScriptNumber.ofInt? v)).map fun y => [y] := by
  show (if ScriptNumber.Fits v then _ else _) = _
  unfold ScriptNumber.ofInt?
  split <;> rfl

theorem leaves_truth {b : Bool} {p : Prop} [Decidable p] (h : b = true ↔ p) :
    (NumericResult.truth p).leaves = (pure (ofBool b) : Except Failure Bytes).map fun y => [y] := by
  rw [← decide_eq_true_iff (p := p), ← Bool.eq_iff_iff] at h
  rw [h]
  rfl

theorem unary {f : Int → Option Int} {g : Int → Int} (h : ∀ a, f a = ScriptNumber.ofInt? (g a)) :
    Computes c (Execute.unary c f) (.unary fun a => .number (g a)) :=
  unop fun a => by rw [h, leaves_number]

theorem unaryTest {f : Int → Bool} {p : Int → Prop} [DecidablePred p] (h : ∀ a, f a = true ↔ p a) :
    Computes c (Execute.unaryTest c f) (.unary fun a => .truth (p a)) :=
  unop fun a => leaves_truth (h a)

theorem binary {f : Int → Int → Option Int} {g : Int → Int → Int}
    (h : ∀ a b, ScriptNumber.Fits a → ScriptNumber.Fits b → f a b = ScriptNumber.ofInt? (g a b)) :
    Computes c (Execute.binary c f) (.binary fun a b => .number (g a b)) :=
  binop fun a b ha hb => by rw [h a b ha hb, leaves_number]

theorem binaryTest {f : Int → Int → Bool} {p : Int → Int → Prop} [∀ a b, Decidable (p a b)]
    (h : ∀ a b, f a b = true ↔ p a b) :
    Computes c (Execute.binaryTest c f) (.binary fun a b => .truth (p a b)) :=
  binop fun a b _ _ => leaves_truth (h a b)

theorem numEqualVerify :
    Computes c (Execute.numEqualVerify c) (.binary fun a b => .demand (a = b)) := by
  refine binfn fun a b => ?_
  by_cases heq : a = b
  · rw [decide_eq_true heq, if_pos heq]
    rfl
  · rw [decide_eq_false heq, if_neg heq]
    rfl

theorem within : Computes c (Execute.within c)
    (.ternary fun a low high => .truth (low ≤ a ∧ a < high)) := by
  intro s operands below hcount hstack
  obtain ⟨x1, x2, x3, rfl⟩ := List.length_eq_three.mp hcount
  have htop : s.stack = x3 :: x2 :: x1 :: below := hstack
  rw [onStack_within htop, List.mapM_cons, List.mapM_cons, List.mapM_cons, List.mapM_nil]
  cases c.number x1 with
  | error e => rfl
  | ok a =>
    cases c.number x2 with
    | error e => rfl
    | ok low =>
      cases c.number x3 with
      | error e => rfl
      | ok high =>
        exact congrArg (fun b => Except.ok { s with stack := ofBool b :: below })
          (Bool.decide_and (low ≤ a) (a < high)).symm

end Computes

/-- **Every opcode on numbers computes its formula.** -/
theorem computes_operation {op : Operation} {formula : Formula}
    (hop : Formula.ofOperation? op = some formula) :
    ∃ stackOp, Computes c stackOp formula ∧ ∀ position s,
      operation c position s op = .ofExcept (s.onStack stackOp) := by
  cases op <;> cases hop
  case add1 => exact ⟨_, .unary fun _ => rfl, fun _ _ => rfl⟩
  case sub1 => exact ⟨_, .unary fun _ => rfl, fun _ _ => rfl⟩
  case negate => exact ⟨_, .unary fun _ => rfl, fun _ _ => rfl⟩
  case abs => exact ⟨_, .unary fun _ => rfl, fun _ _ => rfl⟩
  case not => exact ⟨_, .unaryTest fun a => beq_iff_eq, fun _ _ => rfl⟩
  case notEqual0 => exact ⟨_, .unaryTest fun a => bne_iff_ne, fun _ _ => rfl⟩
  case add => exact ⟨_, .binary fun _ _ _ _ => rfl, fun _ _ => rfl⟩
  case sub => exact ⟨_, .binary fun _ _ _ _ => rfl, fun _ _ => rfl⟩
  case boolAnd => exact ⟨_, .binaryTest fun a b => by simp, fun _ _ => rfl⟩
  case boolOr => exact ⟨_, .binaryTest fun a b => by simp, fun _ _ => rfl⟩
  case numEqual => exact ⟨_, .binaryTest fun a b => beq_iff_eq, fun _ _ => rfl⟩
  case numEqualVerify => exact ⟨_, .numEqualVerify, fun _ _ => rfl⟩
  case numNotEqual => exact ⟨_, .binaryTest fun a b => bne_iff_ne, fun _ _ => rfl⟩
  case lessThan => exact ⟨_, .binaryTest fun a b => decide_eq_true_iff, fun _ _ => rfl⟩
  case greaterThan => exact ⟨_, .binaryTest fun a b => decide_eq_true_iff, fun _ _ => rfl⟩
  case lessThanOrEqual => exact ⟨_, .binaryTest fun a b => decide_eq_true_iff, fun _ _ => rfl⟩
  case greaterThanOrEqual => exact ⟨_, .binaryTest fun a b => decide_eq_true_iff, fun _ _ => rfl⟩
  case min => exact ⟨_, .binary fun _ _ ha hb => (if_pos (fits_min ha hb)).symm, fun _ _ => rfl⟩
  case max => exact ⟨_, .binary fun _ _ ha hb => (if_pos (fits_max ha hb)).symm, fun _ _ => rfl⟩
  case within => exact ⟨_, .within, fun _ _ => rfl⟩

end Execute

/-! ## 3. Overflow -/

/-- What comes of integers leaves one element at most. -/
theorem NumericResult.length_le_of_leaves {r : NumericResult} {left : List Bytes}
    (h : r.leaves = .ok left) : left.length ≤ 1 := by
  unfold leaves at h
  split at h
  · split at h
    · cases h; exact Nat.le_refl 1
    · cases h
  · cases h; exact Nat.le_refl 1
  · split at h
    · cases h; exact Nat.zero_le 1
    · cases h

namespace Formula

/-- An opcode leaves no more than it takes. -/
theorem length_le_of_leaves {formula : Formula} {numbers : List Int} {left : List Bytes}
    (h : formula.leaves numbers = .ok left) : left.length ≤ formula.arity := by
  have hpos : 1 ≤ formula.arity := by cases formula <;> simp [arity]
  unfold leaves at h
  split at h
  case h_4 => cases h
  all_goals exact Nat.le_trans (NumericResult.length_le_of_leaves h) hpos

/-- A formula that stays within 64 bits on numbers of seven bytes. -/
def StaysSmall : Formula → Prop
  | unary f => ∀ a, a.natAbs < 2 ^ 55 → (f a).leaves ≠ .error Execute.overflow
  | binary f => ∀ a b, a.natAbs < 2 ^ 55 → b.natAbs < 2 ^ 55 →
    (f a b).leaves ≠ .error Execute.overflow
  | ternary f => ∀ a b c, a.natAbs < 2 ^ 55 → b.natAbs < 2 ^ 55 → c.natAbs < 2 ^ 55 →
    (f a b c).leaves ≠ .error Execute.overflow

theorem leaves_number_ne {v : Int} (h : ScriptNumber.Fits v) :
    (NumericResult.number v).leaves ≠ .error Execute.overflow := by
  show (if ScriptNumber.Fits v then _ else _) ≠ _
  rw [if_pos h]
  exact nofun

theorem leaves_demand_ne (holds : Bool) :
    (NumericResult.demand holds).leaves ≠ .error Execute.overflow := by
  cases holds <;> exact nofun

/-- **No opcode needs more than one bit beyond its operands.** -/
theorem staysSmall_ofOperation? {op : Operation} {formula : Formula}
    (hop : ofOperation? op = some formula) : formula.StaysSmall := by
  cases op <;> cases hop
  case add1 | sub1 | negate | abs =>
    intro a ha
    refine leaves_number_ne ?_
    unfold ScriptNumber.Fits ScriptNumber.least
    omega
  case add | sub | min | max =>
    intro a b ha hb
    refine leaves_number_ne ?_
    unfold ScriptNumber.Fits ScriptNumber.least
    omega
  case numEqualVerify => exact fun _ _ _ _ => leaves_demand_ne _
  case within => exact fun _ _ _ _ _ _ => nofun
  case not | notEqual0 => exact fun _ _ => nofun
  all_goals exact fun _ _ _ _ => nofun

theorem StaysSmall.leaves_ne {formula : Formula} (h : formula.StaysSmall) {numbers : List Int}
    (hsmall : ∀ a ∈ numbers, a.natAbs < 2 ^ 55) :
    formula.leaves numbers ≠ .error Execute.overflow := by
  unfold leaves
  split
  · exact h _ (hsmall _ (by simp))
  · exact h _ _ (hsmall _ (by simp)) (hsmall _ (by simp))
  · exact h _ _ _ (hsmall _ (by simp)) (hsmall _ (by simp)) (hsmall _ (by simp))
  · exact nofun

end Formula

/-! ## 4. One opcode on numbers -/

/-- **An opcode on numbers for which there is room** computes its formula. -/
theorem BuiltIn.result_step_formula {c : Context} {position : Nat} {op : Operation}
    {formula : Formula} (hop : Formula.ofOperation? op = some formula) {s : State}
    {rest operands : List Bytes} (hstack : s.stack = .ofBottomFirst (rest ++ operands))
    (hcount : operands.length = formula.arity) (hactive : s.isActive)
    (hops : s.opCount + 1 ≤ c.limits.maxOpCount) (hdepth : s.depth ≤ c.limits.maxStackSize) :
    (step c position (.operation op) s).result =
      (operands.mapM c.number >>= formula.leaves).map fun left =>
        { s with stack := .ofBottomFirst (rest ++ left), opCount := s.opCount + 1 } := by
  obtain ⟨stackOp, hcomputes, hrun⟩ := Execute.computes_operation hop
  have hbelow : s.stack = operands.reverse ++ .ofBottomFirst rest := by
    rw [hstack, Stack.ofBottomFirst_append]
  refine result_step_operation hactive hops ?_ ?_
  · have hcounted := hcomputes { s with opCount := s.opCount + 1 } _ _ hcount hbelow
    rw [hrun, Run.result_ofExcept, hcounted]
    congr 1
    funext left
    rw [Stack.ofBottomFirst_append]
  · intro s' h
    obtain ⟨left, hleft, rfl⟩ := map_eq_ok_iff.mp h
    obtain ⟨numbers, _, hleaves⟩ := eq_ok_of_bind hleft
    have hshort := Formula.length_le_of_leaves hleaves
    refine Nat.le_trans (Nat.add_le_add_right ?_ s.alt.length) hdepth
    rw [hstack, Stack.length_ofBottomFirst, Stack.length_ofBottomFirst, List.length_append,
      List.length_append, hcount]
    exact Nat.add_le_add_left hshort rest.length

/-- **Opcodes on numbers compute with integers.** Where the operands of one of the opcodes of the
table are there, and each of them decodes, what its formula leaves takes their place and nothing
else changes, save that an operation was counted: a result of 64 bits in its shortest encoding, one
or the empty string for a truth value, nothing for a condition that holds. A result that does not
fit and an operand that does not decode are failures of script numbers, and under a limit of seven
bytes or less every result fits. -/
theorem Interpreter.arithmetic_exact (i : Interpreter μ) (hext : i.extensions = [])
    (script : Program) (flags : Flags) (position : Nat) {op : Operation} {formula : Formula}
    (hop : Formula.ofOperation? op = some formula) (s : State) (rest operands : List Bytes)
    (hstack : s.stack = .ofBottomFirst (rest ++ operands))
    (hcount : operands.length = formula.arity) (hactive : s.isActive)
    (hops : s.opCount + 1 ≤ i.limits.maxOpCount) (hdepth : s.depth ≤ i.limits.maxStackSize)
    (m : μ) :
    let decode := fun x => ScriptNumber.decode x flags.minimalData i.limits.maxNumSize
    let done := (i.step (i.context script flags) position (.operation op) s).outcome m
    (∀ numbers, operands.mapM decode = .ok numbers →
      done = (formula.leaves numbers).map fun left =>
        { s with stack := .ofBottomFirst (rest ++ left), opCount := s.opCount + 1 }) ∧
    (∀ e, operands.mapM decode = .error e → done = .error (.ofNumber e)) ∧
    (i.limits.maxNumSize ≤ 7 → done ≠ .error Execute.overflow) := by
  intro decode done
  have hdone : done = ((operands.mapM decode).mapError Failure.ofNumber >>= formula.leaves).map
      fun left =>
        { s with stack := .ofBottomFirst (rest ++ left), opCount := s.opCount + 1 } := by
    show ((i.step (i.context script flags) position (.operation op) s).outcome m) = _
    rw [outcome_step hext rfl,
      BuiltIn.result_step_formula hop hstack hcount hactive hops hdepth, ← mapM_mapError]
    rfl
  rw [hdone]
  refine ⟨fun numbers hnumbers => ?_, fun e he => ?_, fun hsize => ?_⟩
  · rw [hnumbers]
    rfl
  · rw [he]
    rfl
  · cases hnumbers : operands.mapM decode with
    | error e => exact nofun
    | ok numbers =>
      have hsmall : ∀ a ∈ numbers, a.natAbs < 2 ^ 55 := by
        intro a ha
        obtain ⟨x, _, hx⟩ := exists_of_mem_mapM hnumbers ha
        exact ScriptNumber.natAbs_lt_of_decode (by decide) hsize hx
      exact mt map_eq_error_iff.mp ((Formula.staysSmall_ofOperation? hop).leaves_ne hsmall)

/-- Three is taken from the five under it and the seven below stays. Where operands of nine bytes
are allowed, one less than the least number is a failure. -/
theorem Interpreter.arithmetic_exact_sub :
    let wide : Interpreter Unit := { plain with limits := { maxNumSize := 9 } }
    let s := State.initial (.ofBottomFirst ([[7]] ++ [[5], [3]]))
    let low := State.initial (.ofBottomFirst ([[7]] ++ [ScriptNumber.leastEncoding, [1]]))
    s.isActive ∧ low.isActive ∧
    (plain.step (plain.context [] .empty) 0 (.operation .sub) s).outcome () =
      .ok { s with stack := .ofBottomFirst [[7], [2]], opCount := 1 } ∧
    (wide.step (wide.context [] .empty) 0 (.operation .sub) low).outcome () =
      .error Execute.overflow := by
  intro wide s low
  have hop : Formula.ofOperation? .sub = some (.binary fun a b => .number (a - b)) := rfl
  obtain ⟨hsub, -⟩ := arithmetic_exact plain rfl [] .empty 0 hop s [[7]] [[5], [3]] rfl rfl rfl
    (by decide) (by decide) ()
  obtain ⟨hover, -⟩ := arithmetic_exact wide rfl [] .empty 0 hop low [[7]]
    [ScriptNumber.leastEncoding, [1]] rfl rfl rfl (by decide) (by decide) ()
  exact ⟨rfl, rfl, hsub [5, 3] rfl, hover [ScriptNumber.least, 1] rfl⟩

end SpendScript
