import SpendScript.Interpreter
/-!
# The extension that does nothing

Extensions are consulted in order, in five places, and in some of them the first that speaks up ends
the round. An extension all of whose hooks are the defaults never speaks up, so it makes no
difference where in the order it stands, or that it is there at all.

What this file fixes:

* `Extension.insertIdx_induction` -- lists that differ by such an extension.
* `Interpreter.withNeutral` -- an interpreter with one more of them, at any place.
* `Interpreter.eval_withNeutral`, `Interpreter.verifyWith_withNeutral` -- scripts and pairs of
  scripts are evaluated as they are without it, with the same memory.
* `Interpreter.interface_atDepth` -- the same for extensions that use the interpreter themselves, to
  any depth.
-/

namespace SpendScript

variable {μ : Type}

/-! ## 1. Lists that differ by an extension that does nothing -/

/-- **A list with an extension that does nothing, against the list without it.** What is the same in
front of the list, and is kept by what comes before, is the same wherever it stands. -/
theorem Extension.insertIdx_induction {motive : List (Extension μ) → List (Extension μ) → Prop}
    (nil : motive [] []) (neutral : ∀ exts, motive (.neutral :: exts) exts)
    (cons : ∀ ext longer exts, motive longer exts → motive (ext :: longer) (ext :: exts))
    (place : Nat) (exts : List (Extension μ)) : motive (exts.insertIdx place .neutral) exts := by
  induction place generalizing exts with
  | zero => exact neutral exts
  | succ place ih =>
    cases exts with
    | nil => exact nil
    | cons ext rest => exact cons ext _ rest (ih rest)

namespace Interpreter

variable {i : Interpreter μ} (place : Nat) (exts : List (Extension μ))

/-- It asks for no rule. -/
theorem foldl_extraFlags_insertIdx (flags : Flags) :
    (exts.insertIdx place .neutral).foldl (fun flags ext => flags ∪ ext.extraFlags) flags
      = exts.foldl (fun flags ext => flags ∪ ext.extraFlags) flags := by
  refine Extension.insertIdx_induction
    (motive := fun longer exts => ∀ flags : Flags,
      longer.foldl (fun flags ext => flags ∪ ext.extraFlags) flags
        = exts.foldl (fun flags ext => flags ∪ ext.extraFlags) flags)
    (fun _ => rfl) (fun exts flags => ?neutral) (fun ext _ _ ih flags => ?cons) place exts flags
  case neutral =>
    have hnone : flags ∪ (Extension.neutral : Extension μ).extraFlags = flags :=
      Flags.union_empty flags
    rw [List.foldl_cons, hnone]
  case cons => exact ih (flags ∪ ext.extraFlags)

/-- It claims no chunk. -/
theorem firstClaiming_insertIdx (chunk : Chunk) (flags : Flags) :
    firstClaiming chunk flags (exts.insertIdx place .neutral) = firstClaiming chunk flags exts := by
  refine Extension.insertIdx_induction
    (motive := fun longer exts => firstClaiming chunk flags longer = firstClaiming chunk flags exts)
    rfl (fun _ => rfl) (fun ext _ _ ih => ?cons) place exts
  case cons =>
    funext m
    unfold firstClaiming
    rw [ih]

/-- It takes no pair of scripts over. -/
theorem firstTaking_insertIdx (sig output : Program) (flags : Flags) :
    firstTaking sig output flags (exts.insertIdx place .neutral)
      = firstTaking sig output flags exts := by
  refine Extension.insertIdx_induction
    (motive := fun longer exts =>
      firstTaking sig output flags longer = firstTaking sig output flags exts)
    rfl (fun _ => rfl) (fun ext _ _ ih => ?cons) place exts
  case cons =>
    funext m
    unfold firstTaking
    rw [ih]

/-- It does nothing after a signature script. -/
theorem afterSignatureScript_insertIdx (sig : Program) (flags : Flags) (stack : Stack Bytes) :
    i.afterSignatureScript sig flags stack (exts.insertIdx place .neutral)
      = i.afterSignatureScript sig flags stack exts := by
  refine Extension.insertIdx_induction
    (motive := fun longer exts => i.afterSignatureScript sig flags stack longer
      = i.afterSignatureScript sig flags stack exts)
    rfl (fun _ => rfl) (fun ext _ _ ih => ?cons) place exts
  case cons =>
    unfold afterSignatureScript
    rw [ih]

/-- After an output script it goes on, with the stack as it was. -/
theorem afterOutputScript_insertIdx (output : Program) (flags : Flags) :
    i.afterOutputScript output flags (exts.insertIdx place .neutral)
      = i.afterOutputScript output flags exts := by
  refine Extension.insertIdx_induction
    (motive := fun longer exts =>
      i.afterOutputScript output flags longer = i.afterOutputScript output flags exts)
    rfl (fun _ => rfl) (fun ext _ _ ih => ?cons) place exts
  case cons =>
    funext stack
    unfold afterOutputScript
    rw [ih]

/-! ## 2. Interpreters with an extension that does nothing -/

/-- The interpreter with one more extension, which does nothing, behind so many others. -/
def withNeutral (i : Interpreter μ) (place : Nat) : Interpreter μ :=
  { i with extensions := i.extensions.insertIdx place .neutral }

theorem flags_withNeutral (i : Interpreter μ) (place : Nat) :
    (i.withNeutral place).flags = i.flags :=
  foldl_extraFlags_insertIdx place i.extensions i.baseFlags

theorem dispatch_withNeutral (c : Context) (position : Nat) (chunk : Chunk) (s : State) :
    (i.withNeutral place).dispatch c position chunk s = i.dispatch c position chunk s := by
  have hfirst : firstClaiming chunk c.flags (i.withNeutral place).extensions
      = firstClaiming chunk c.flags i.extensions :=
    firstClaiming_insertIdx place i.extensions chunk c.flags
  unfold dispatch
  rw [hfirst]
  rfl

theorem step_withNeutral : (i.withNeutral place).step = i.step := by
  funext c position chunk s
  unfold step
  simp only [dispatch_withNeutral]

theorem steps_withNeutral (c : Context) (position : Nat) (p : Program) (s : State) :
    (i.withNeutral place).steps c position p s = i.steps c position p s := by
  induction p generalizing position s with
  | nil => rfl
  | cons chunk rest ih =>
    unfold steps
    simp only [step_withNeutral, ih]

/-- **A script is evaluated as without it**, and leaves the same memory. -/
theorem eval_withNeutral (i : Interpreter μ) (place : Nat) :
    (i.withNeutral place).eval = i.eval := by
  funext stack script flags
  unfold eval
  simp only [steps_withNeutral]
  rfl

theorem evaluator_withNeutral : (i.withNeutral place).evaluator = i.evaluator :=
  congrArg Evaluator.mk (eval_withNeutral i place)

theorem afterSignatureScript_withNeutral (sig : Program) (flags : Flags) (stack : Stack Bytes) :
    (i.withNeutral place).afterSignatureScript sig flags stack (i.withNeutral place).extensions
      = i.afterSignatureScript sig flags stack i.extensions := by
  have hsame : ∀ exts, (i.withNeutral place).afterSignatureScript sig flags stack exts
      = i.afterSignatureScript sig flags stack exts := by
    intro exts
    induction exts with
    | nil => rfl
    | cons ext rest ih =>
      unfold afterSignatureScript
      rw [evaluator_withNeutral, ih]
  rw [hsame]
  exact afterSignatureScript_insertIdx place i.extensions sig flags stack

theorem afterOutputScript_withNeutral (output : Program) (flags : Flags) (stack : Stack Bytes) :
    (i.withNeutral place).afterOutputScript output flags (i.withNeutral place).extensions stack
      = i.afterOutputScript output flags i.extensions stack := by
  have hsame : ∀ exts, (i.withNeutral place).afterOutputScript output flags exts
      = i.afterOutputScript output flags exts := by
    intro exts
    induction exts with
    | nil => rfl
    | cons ext rest ih =>
      funext stack
      unfold afterOutputScript
      rw [evaluator_withNeutral, ih]
  rw [hsame]
  exact congrFun (afterOutputScript_insertIdx place i.extensions output flags) stack

theorem verifyBuiltIn_withNeutral (sig output : Program) (flags : Flags) :
    (i.withNeutral place).verifyBuiltIn sig output flags = i.verifyBuiltIn sig output flags := by
  unfold verifyBuiltIn redeem
  simp only [eval_withNeutral, evaluator_withNeutral, afterSignatureScript_withNeutral,
    afterOutputScript_withNeutral]

/-- **A pair of scripts is verified as without it**, and leaves the same memory. -/
theorem verifyWith_withNeutral (i : Interpreter μ) (place : Nat) :
    (i.withNeutral place).verifyWith = i.verifyWith := by
  funext sig output flags
  have hfirst : firstTaking sig output flags (i.withNeutral place).extensions
      = firstTaking sig output flags i.extensions :=
    firstTaking_insertIdx place i.extensions sig output flags
  unfold verifyWith
  rw [hfirst, evaluator_withNeutral, verifyBuiltIn_withNeutral]

theorem verify_withNeutral (i : Interpreter μ) (place : Nat) :
    (i.withNeutral place).verify = i.verify := by
  unfold verify
  rw [verifyWith_withNeutral, flags_withNeutral]

/-! ## 3. Extensions that use the interpreter -/

theorem interface_withNeutral (i : Interpreter μ) (place : Nat) :
    (i.withNeutral place).interface = i.interface := by
  unfold interface
  rw [flags_withNeutral, step_withNeutral, eval_withNeutral, verify_withNeutral]

/-- **One more extension that does nothing makes no difference at any depth**, by induction: each
level sees what it saw without it. -/
theorem interface_atDepth (i : Interpreter μ) (extensions : Interface μ → List (Extension μ))
    (innermost : Interface μ) (place depth : Nat) :
    (i.atDepth (fun seen => (extensions seen).insertIdx place .neutral) innermost depth).interface
      = (i.atDepth extensions innermost depth).interface := by
  have hseeing : ∀ seen : Interface μ,
      (i.seeing (fun seen => (extensions seen).insertIdx place .neutral) seen).interface
        = (i.seeing extensions seen).interface := fun seen =>
    interface_withNeutral (i.seeing extensions seen) place
  induction depth with
  | zero => exact hseeing innermost
  | succ depth ih =>
    unfold atDepth
    rw [ih]
    exact hseeing _

end Interpreter

end SpendScript
