import SpendScript.Proofs.BuiltIn
/-!
# A run, chunk by chunk

Statements about whole runs are about the machine between two chunks, or about what was asked on
the way. This file gives both a name and packages the two inductions over a run.

What this file fixes:

* `Interpreter.after` -- the machine after so many chunks of a script.
* `Interpreter.Recording` -- an interpreter without extensions that writes every question down.
* `BuiltIn.after_induction` -- what holds at the start and is kept by every accepted chunk holds
  after every accepted prefix of a script.
* `BuiltIn.exists_of_mem_asked_steps` -- every question of a run was asked by one of its chunks, on
  the machine that the chunks before it left.
-/

namespace SpendScript

variable {μ α : Type}

/-! ## 1. After so many chunks -/

/-- The machine after so many chunks of a script. -/
def Interpreter.after (i : Interpreter μ) (c : Context) (stack : Stack Bytes) (n : Nat) :
    Session μ State := i.steps c 0 (c.script.take n) (.initial stack)

namespace BuiltIn

variable {c : Context} {stack : Stack Bytes}

/-- The machine after so many chunks of a script. -/
def after (c : Context) (stack : Stack Bytes) (n : Nat) : Run State :=
  steps c 0 (c.script.take n) (.initial stack)

/-- **One chunk more.** -/
theorem after_succ {n : Nat} {chunk : Chunk} (h : c.script[n]? = some chunk) :
    after c stack (n + 1) = after c stack n >>= step c n chunk := by
  obtain ⟨hlt, _⟩ := List.getElem?_eq_some_iff.mp h
  have hlength : 0 + (c.script.take n).length = n := by
    rw [Nat.zero_add, List.length_take_of_le (Nat.le_of_lt hlt)]
  unfold after
  rw [List.take_add_one, h, Option.toList_some, steps_append, hlength]
  congr 1
  funext s
  exact bind_pure _

/-- A prefix one chunk longer was accepted because the prefix was and then the chunk was. -/
theorem after_succ_ok {n : Nat} {chunk : Chunk} {s' : State} (h : c.script[n]? = some chunk)
    (hs : (after c stack (n + 1)).result = .ok s') :
    ∃ s, (after c stack n).result = .ok s ∧ (step c n chunk s).result = .ok s' := by
  rw [after_succ h] at hs
  exact Run.eq_ok_of_bind hs

/-- **Induction along a run**: what holds at the start and is kept by every accepted chunk holds
after every accepted prefix. -/
theorem after_induction {motive : Nat → State → Prop} (hzero : motive 0 (.initial stack))
    (hsucc : ∀ n chunk s s', c.script[n]? = some chunk → (after c stack n).result = .ok s →
      (step c n chunk s).result = .ok s' → motive n s → motive (n + 1) s')
    {n : Nat} {s : State} (hn : n ≤ c.script.length) (h : (after c stack n).result = .ok s) :
    motive n s := by
  induction n generalizing s with
  | zero => cases h; exact hzero
  | succ n ih =>
    have hchunk : c.script[n]? = some c.script[n] := List.getElem?_eq_getElem hn
    obtain ⟨between, hbetween, hstep⟩ := after_succ_ok hchunk h
    exact hsucc n _ between s hchunk hbetween hstep (ih (Nat.le_of_lt hn) hbetween)

/-! ## 2. What was asked on the way -/

/-- **Every question of a run was asked by one of its chunks**, on the machine that the chunks
before it left, by induction on the script. -/
theorem exists_of_mem_asked_steps {q : Query} {position : Nat} {p : Program} {s : State}
    (h : q ∈ (steps c position p s).asked) :
    ∃ n chunk s', p[n]? = some chunk ∧ (steps c position (p.take n) s).result = .ok s' ∧
      q ∈ (step c (position + n) chunk s').asked := by
  induction p generalizing position s with
  | nil => cases h
  | cons chunk rest ih =>
    rcases Run.mem_asked_bind h with h | ⟨between, hstep, h⟩
    · exact ⟨0, chunk, s, rfl, rfl, h⟩
    · obtain ⟨n, found, s', hfound, hsteps, hasked⟩ := ih h
      have hposition : position + (n + 1) = position + 1 + n := by omega
      refine ⟨n + 1, found, s', hfound, ?_, by rw [hposition]; exact hasked⟩
      rw [List.take_succ_cons, steps_cons, Run.result_bind, hstep]
      exact hsteps

end BuiltIn

/-! ## 3. Interpreters that write every question down -/

/-- The interpreter has no extensions, and its memory is the list of the questions asked, in
order. -/
structure Interpreter.Recording (i : Interpreter (List Query)) : Prop where
  extensions : i.extensions = []
  observe : i.observe = fun q log => log ++ [q]

/-- One of these, for which no signature fits and no lock time has come. -/
def Interpreter.recorder : Interpreter (List Query) :=
  { baseFlags := .empty, checker := .rejecting, observe := fun q log => log ++ [q] }

theorem Interpreter.recording_recorder : recorder.Recording := ⟨rfl, rfl⟩

theorem Run.memory_observed (x : Run α) (log : List Query) :
    (x.observed fun q log => log ++ [q]).memory log = log ++ x.asked := by
  have hfold : x.asked.foldl (fun log q => log ++ [q]) log = log ++ x.asked := by
    rw [List.foldl_append_eq_append, ← List.flatMap_def, List.flatMap_singleton']
  rw [← hfold]
  unfold observed Session.memory
  cases x.result <;> rfl

namespace Interpreter

section NoExtensions

variable {i : Interpreter μ} (h : i.extensions = [])
include h

theorem outcome_after {c : Context} (hc : c.checker = i.checker) (stack : Stack Bytes) (n : Nat)
    (m : μ) : (i.after c stack n).outcome m = (BuiltIn.after c stack n).result := by
  unfold after BuiltIn.after
  rw [steps_eq (dispatches_of_noExtensions h) hc, Run.outcome_observed]

end NoExtensions

namespace Recording

variable {i : Interpreter (List Query)} (h : i.Recording)
include h

theorem memory_step {c : Context} (hc : c.checker = i.checker) (position : Nat) (chunk : Chunk)
    (s : State) :
    (i.step c position chunk s).memory [] = (BuiltIn.step c position chunk s).asked := by
  rw [step_eq (dispatches_of_noExtensions h.extensions) hc, h.observe, Run.memory_observed,
    List.nil_append]

theorem memory_eval (stack : Stack Bytes) (script : Program) (flags : Flags) :
    (i.eval stack script flags).memory [] = (BuiltIn.eval i stack script flags).asked := by
  rw [eval_eq (dispatches_of_noExtensions h.extensions), h.observe, Run.memory_observed,
    List.nil_append]

theorem memory_verify (sig output : Program) :
    (i.verify sig output).memory [] = (BuiltIn.verify i sig output i.flags).asked := by
  unfold verify
  rw [verifyWith_eq h.extensions, h.observe, Run.memory_observed, List.nil_append]

end Recording

end Interpreter

end SpendScript
