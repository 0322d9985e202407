import SpendScript.Proofs.Conditional
import SpendScript.Proofs.PushOnly
/-!
# Signature scripts that cannot be rewritten

Whoever relays a spend may replace its signature script by another one that leaves the same stack,
and the spend then has another name. The rule on short pushes takes that away from scripts that only
push: what such a script leaves says which script it was.

What this file fixes:

* `Program.ofElements` -- the script that pushes byte strings in the shortest way.
* `BuiltIn.eq_ofElements_of_steps` -- under the rule a script that only pushes and succeeds is the
  one of the elements that it pushes.
* `Interpreter.pushOnly_unique` -- no two such scripts leave the same stack, neither as chunks nor as
  bytes.
-/

namespace SpendScript

variable {μ : Type}

/-- The script that pushes byte strings in the shortest way, the first one first. A byte string that
no push holds is left out. -/
def Program.ofElements (elements : List Bytes) : Program :=
  elements.filterMap fun bytes => (Push.ofBytes? bytes).map Chunk.push

theorem Program.ofElements_cons {p : Push} {bytes : Bytes} (h : p.Shortest bytes)
    (elements : List Bytes) : ofElements (bytes :: elements) = .push p :: ofElements elements :=
  List.filterMap_cons_some (by rw [Push.ofBytes?_of_shortest h]; rfl)

/-! ## 1. Along a run -/

namespace BuiltIn

variable {c : Context} {position : Nat} {s s' : State}

/-- A push that is run under the rule is the shortest one of what it pushes: the checks before it
see to its length, and the rule sees to its form. -/
theorem shortest_of_step {p : Push} (hrule : c.flags.minimalData) (hactive : s.isActive)
    (hstep : (step c position (.push p) s).result = .ok s') : p.Shortest p.value := by
  obtain ⟨hpush, hforbidden, _, hdispatch, _⟩ := step_ok hstep
  rw [dispatch_of_active (show (s.counted (.push p)).isActive from hactive)] at hdispatch
  have hskippable := Chunk.skippable_of_passes ⟨hpush, hforbidden⟩
  obtain ⟨hminimal, _⟩ := Execute.push_ok hdispatch
  exact ⟨rfl, hskippable.1, hminimal hrule⟩

/-- **Under the rule a script that only pushes is the one of its elements**, by induction on the
script: each chunk is a push, for one that is none fails, and the shortest push of its element. -/
theorem eq_ofElements_of_steps {p : Program} (hrule : c.flags.minimalData) (h : p.isPushOnly)
    (hactive : s.isActive) (hsteps : (steps c position p s).result = .ok s') :
    p = Program.ofElements (p.filterMap Chunk.pushData?) := by
  induction p generalizing position s with
  | nil => rfl
  | cons chunk rest ih =>
    obtain ⟨hchunk, hrest⟩ := Program.isPushOnly_cons.mp h
    obtain ⟨between, hstep, hsteps⟩ := Run.eq_ok_of_bind hsteps
    obtain ⟨push, rfl, rfl⟩ := eq_of_step_pushOnly hchunk hactive hstep
    have hshortest := shortest_of_step hrule hactive hstep
    have hrest := ih hrest (s := { s with stack := push.value :: s.stack }) hactive hsteps
    show _ = Program.ofElements (push.value :: rest.filterMap Chunk.pushData?)
    rw [Program.ofElements_cons hshortest, ← hrest]

/-- What a script that only pushes leaves lies on what was there. -/
theorem bottomFirst_of_eval_pushOnly {i : Interpreter μ} {stack left : Stack Bytes} {p : Program}
    {flags : Flags} (h : p.isPushOnly) (heval : (eval i stack p flags).result = .ok left) :
    left.bottomFirst = stack.bottomFirst ++ p.filterMap Chunk.pushData? := by
  obtain ⟨_, s, hsteps, _, rfl⟩ := eval_ok heval
  rw [eq_of_steps_pushOnly h rfl hsteps]
  show (p.pushes ++ stack).reverse = stack.reverse ++ _
  rw [List.reverse_append, Program.pushes, List.reverse_reverse]

/-- A script that only pushes and succeeds under the rule can be read off what it leaves. -/
theorem eq_of_eval_pushOnly {i : Interpreter μ} {stack left : Stack Bytes} {p : Program}
    {flags : Flags} (hrule : flags.minimalData) (h : p.isPushOnly)
    (heval : (eval i stack p flags).result = .ok left) :
    p = Program.ofElements (left.bottomFirst.drop stack.length) := by
  have hleft := bottomFirst_of_eval_pushOnly h heval
  obtain ⟨_, s, hsteps, _⟩ := eval_ok heval
  have hp := eq_ofElements_of_steps (c := i.context p flags) hrule h rfl hsteps
  have hlength : stack.bottomFirst.length = stack.length := List.length_reverse
  rw [hleft, ← hlength, List.drop_left, ← hp]

end BuiltIn

/-! ## 2. The interpreter -/

/-- **What a script that only pushes leaves says which script it was.** Without extensions, whatever
the limits and the checker, from any stack: under the rule on short pushes, two scripts that only
push and leave the same stack are the same, chunk by chunk and byte by byte. Under any rules, a
script that only pushes and succeeds leaves its elements, in order, on what was there. -/
theorem Interpreter.pushOnly_unique (i : Interpreter μ) (hext : i.extensions = [])
    (stack : Stack Bytes) (flags : Flags) :
    (flags.minimalData → ∀ (p q : Program) (left : Stack Bytes) (m m' : μ),
      p.isPushOnly → q.isPushOnly → (i.eval stack p flags).outcome m = .ok left →
      (i.eval stack q flags).outcome m' = .ok left → p = q ∧ p.encode = q.encode) ∧
    (∀ (p : Program) (left : Stack Bytes) (m : μ), p.isPushOnly →
      (i.eval stack p flags).outcome m = .ok left →
      left.bottomFirst = stack.bottomFirst ++ p.filterMap Chunk.pushData?) := by
  constructor
  · intro hrule p q left m m' hp hq hpleft hqleft
    rw [outcome_eval hext] at hpleft hqleft
    have hprogram : p = q := by
      rw [BuiltIn.eq_of_eval_pushOnly hrule hp hpleft, BuiltIn.eq_of_eval_pushOnly hrule hq hqleft]
    exact ⟨hprogram, congrArg Program.encode hprogram⟩
  · intro p left m hp hleft
    rw [outcome_eval hext] at hleft
    exact BuiltIn.bottomFirst_of_eval_pushOnly hp hleft

namespace Malleability

/-- The rule on short pushes alone. -/
def shortPushes : Flags := { Flags.empty with minimalData := true }

/-- A byte string that is too long for a direct push. -/
def long : Bytes := List.replicate 76 0x2a

/-- A script with a push of each kind that the rule lets pass for elements of these sizes. -/
def forms : Program :=
  [.push (.small (.num 0)), .push (.small (.num 5)), .push (.small .negOne),
   .push (.data ⟨.direct, [0x05, 0x00]⟩), .push (.data ⟨.pushData1, long⟩)]

/-- What the script pushes, the last element on the top. -/
def left : Stack Bytes := [long, [0x05, 0x00], [0x81], [0x05], []]

end Malleability

open Malleability in
/-- The script is found again from what it leaves. -/
theorem Interpreter.pushOnly_unique_forms :
    plain.extensions = [] ∧ shortPushes.minimalData ∧ forms.isPushOnly ∧
    (Program.ofElements left.bottomFirst).isPushOnly ∧
    (plain.eval [] forms shortPushes).outcome () = .ok left ∧
    (plain.eval [] (Program.ofElements left.bottomFirst) shortPushes).outcome () = .ok left ∧
    forms = Program.ofElements left.bottomFirst ∧
    left.bottomFirst = forms.filterMap Chunk.pushData? := by
  have hforms : (plain.eval [] forms shortPushes).outcome () = .ok left :=
    eq_ok_of_toOption (by decide +kernel)
  have hfound : (plain.eval [] (Program.ofElements left.bottomFirst) shortPushes).outcome ()
      = .ok left := eq_ok_of_toOption (by decide +kernel)
  have hpushOnly : forms.isPushOnly ∧ (Program.ofElements left.bottomFirst).isPushOnly := by
    decide +kernel
  obtain ⟨hunique, hleft⟩ := Interpreter.pushOnly_unique plain rfl [] shortPushes
  obtain ⟨hsame, _⟩ := hunique rfl _ _ left () () hpushOnly.1 hpushOnly.2 hforms hfound
  exact ⟨rfl, rfl, hpushOnly.1, hpushOnly.2, hforms, hfound, hsame,
    hleft forms left () hpushOnly.1 hforms⟩

/-- Without the rule a number can also be pushed as a byte. -/
example :
    ((Interpreter.plain.eval [] [.push (.small (.num 5))] .empty).outcome ()).toOption
      = ((Interpreter.plain.eval [] [.push (.data ⟨.direct, [0x05]⟩)] .empty).outcome ()).toOption :=
  by decide +kernel

end SpendScript
