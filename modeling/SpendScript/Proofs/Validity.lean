import SpendScript.Proofs.Conditional
import SpendScript.Proofs.Effect
import SpendScript.Proofs.Trace
/-!
# What can be told of a script that succeeds

Most of what makes a script fail lies on the stack. Some of it lies in the script alone, and is found
in branches that are skipped as well: pushes that say their length wrongly or push too much, opcodes
that fail wherever they stand, too many operations, branches that are never closed. This file says
that a script with any of these faults never succeeds, whatever is on the stack.

What this file fixes:

* `Program.opened`, `Program.closed` -- how many branches a script opens and closes, by counting its
  opcodes.
* `Program.Valid` -- what is asked of a script, its chunks and its prefixes, without running it.
* `BuiltIn.conditions_of_steps` -- the open conditions are those that were opened and not closed,
  whatever the conditions were.
* `Interpreter.valid_of_eval` -- a script that succeeds is valid, and along every run as many
  conditions are open as can be counted.
-/

namespace SpendScript

variable {μ : Type}

/-! ## 1. Branches, by counting -/

namespace Chunk

/-- Whether the chunk opens a branch. -/
def opens : Chunk → Bool
  | .control .opIf | .control .opNotIf => true
  | _ => false

/-- Whether the chunk closes a branch. -/
def closes : Chunk → Bool
  | .control .opEndIf => true
  | _ => false

/-- What a chunk does to the number of open branches is told by its opcode. -/
theorem add_closes_of_nesting? {chunk : Chunk} {depth depth' : Nat}
    (h : chunk.nesting? depth = some depth') :
    depth' + (if chunk.closes then 1 else 0) = depth + if chunk.opens then 1 else 0 := by
  cases chunk with
  | control op =>
    cases op with
    | opIf | opNotIf => cases h; rfl
    | opElse =>
      change (if depth = 0 then none else some depth) = some depth' at h
      split at h
      · cases h
      · cases h; rfl
    | opEndIf =>
      change (if depth = 0 then none else some (depth - 1)) = some depth' at h
      split at h
      · cases h
      · next hopen =>
        cases h
        show depth - 1 + 1 = depth + 0
        omega
  | push | operation | disabled | bad => cases h; rfl

/-- A branch is switched only while one is open. -/
theorem pos_of_nesting?_opElse {depth depth' : Nat}
    (h : (control .opElse).nesting? depth = some depth') : 0 < depth := by
  change (if depth = 0 then none else some depth) = some depth' at h
  by_cases hopen : depth = 0
  · rw [if_pos hopen] at h
    cases h
  · exact Nat.pos_of_ne_zero hopen

end Chunk

namespace Program

/-- How many branches a script opens. -/
def opened (p : Program) : Nat := p.countP Chunk.opens

/-- How many branches a script closes. -/
def closed (p : Program) : Nat := p.countP Chunk.closes

/-- **What can be told of a script without running it.** It is not too long, none of its chunks
fails where it is skipped, it has no more operations than there may be, and its branches fit: none
is closed or switched that is not open, and none stays open. -/
structure Valid (limits : Limits) (p : Program) : Prop where
  size : p.byteLength ≤ limits.maxScriptSize
  chunks : ∀ chunk ∈ p, chunk.Skippable limits
  operations : p.countP Interpreter.isCounted ≤ limits.maxOpCount
  closed_le : ∀ n, closed (p.take n) ≤ opened (p.take n)
  closed_eq : p.closed = p.opened
  switched : ∀ n, p[n]? = some (.control .opElse) → closed (p.take n) < opened (p.take n)

end Program

/-! ## 2. Along a run -/

namespace BuiltIn

variable {c : Context} {s s' : State} {position : Nat} {p : Program}

/-- **The open conditions are those that were opened and not closed**, by induction on the script:
no chunk lets the stack decide how many there are. -/
theorem conditions_of_steps (h : (steps c position p s).result = .ok s') :
    s'.conditions.length + p.closed = s.conditions.length + p.opened := by
  unfold Program.closed Program.opened
  induction p generalizing position s with
  | nil => cases h; rfl
  | cons chunk rest ih =>
    obtain ⟨between, hstep, hrest⟩ := Run.eq_ok_of_bind h
    have hchunk := Chunk.add_closes_of_nesting? (effect_step hstep).nesting
    have hrest := ih hrest
    rw [List.countP_cons, List.countP_cons]
    omega

/-- **No chunk of a script that was accepted fails where it is skipped.** -/
theorem skippable_of_steps (h : (steps c position p s).result = .ok s') :
    ∀ chunk ∈ p, chunk.Skippable c.limits := by
  induction p generalizing position s with
  | nil => exact fun _ hmem => absurd hmem List.not_mem_nil
  | cons first rest ih =>
    obtain ⟨between, hstep, hrest⟩ := Run.eq_ok_of_bind h
    obtain ⟨hpush, hforbidden, _⟩ := step_ok hstep
    intro chunk hmem
    rcases List.mem_cons.mp hmem with rfl | hmem
    · exact Chunk.skippable_of_passes ⟨hpush, hforbidden⟩
    · exact ih hrest chunk hmem

/-- **Operations are counted**, and each time within the limit. -/
theorem opCount_of_steps (h : (steps c position p s).result = .ok s') :
    s.opCount + p.countP Interpreter.isCounted ≤ s'.opCount ∧
      (s'.opCount = s.opCount ∨ s'.opCount ≤ c.limits.maxOpCount) := by
  induction p generalizing position s with
  | nil => cases h; exact ⟨Nat.le_refl _, .inl rfl⟩
  | cons chunk rest ih =>
    obtain ⟨between, hstep, hrest⟩ := Run.eq_ok_of_bind h
    have heffect := effect_step hstep
    obtain ⟨hcount, hwithin⟩ := ih hrest
    refine ⟨?_, ?_⟩
    · have hops := heffect.opCount
      rw [List.countP_cons]
      omega
    · rcases hwithin with heq | hle
      · rw [heq]
        exact heffect.withinOps
      · exact .inr hle

/-- Every prefix of a script that was accepted is accepted. -/
theorem exists_after {stack : Stack Bytes}
    (h : (steps c 0 c.script (.initial stack)).result = .ok s') (n : Nat) :
    ∃ s, (after c stack n).result = .ok s := by
  have hparts : (steps c 0 (c.script.take n ++ c.script.drop n) (.initial stack)).result
      = .ok s' := by rwa [List.take_append_drop]
  rw [steps_append] at hparts
  obtain ⟨s, hs, _⟩ := Run.eq_ok_of_bind hparts
  exact ⟨s, hs⟩

/-- After every accepted prefix the open conditions can be counted. -/
theorem conditions_after {stack : Stack Bytes} {n : Nat} (h : (after c stack n).result = .ok s) :
    s.conditions.length + Program.closed (c.script.take n) = Program.opened (c.script.take n) := by
  have hcount := conditions_of_steps h
  rw [hcount]
  exact Nat.zero_add _

/-- **A script that is run to its end with every branch closed** is valid, but for its length. -/
theorem valid_of_steps {stack : Stack Bytes} (hsize : c.script.byteLength ≤ c.limits.maxScriptSize)
    (h : (steps c 0 c.script (.initial stack)).result = .ok s') (hclosed : s'.conditions = []) :
    c.script.Valid c.limits where
  size := hsize
  chunks := skippable_of_steps h
  operations := by
    obtain ⟨hcount, hwithin⟩ := opCount_of_steps h
    have hstart : (State.initial stack).opCount = 0 := rfl
    omega
  closed_le n := by
    obtain ⟨s, hs⟩ := exists_after h n
    have hcount := conditions_after hs
    omega
  closed_eq := by
    have hcount := conditions_of_steps h
    rw [hclosed] at hcount
    change 0 + c.script.closed = 0 + c.script.opened at hcount
    omega
  switched n hchunk := by
    -- the machine before the chunk has a condition open, or switching it would have failed
    obtain ⟨after, hafter⟩ := exists_after h (n + 1)
    obtain ⟨s, hs, hstep⟩ := after_succ_ok hchunk hafter
    have hopen := Chunk.pos_of_nesting?_opElse (effect_step hstep).nesting
    have hcount := conditions_after hs
    omega

end BuiltIn

/-! ## 3. The interpreter -/

/-- **Only valid scripts succeed.** Without extensions, whatever the stack, the rules, the limits and
the checker: a script whose evaluation succeeds is valid. Along every run, whether it succeeds in the
end or not, the open conditions are the branches that were opened less those that were closed. -/
theorem Interpreter.valid_of_eval (i : Interpreter μ) (hext : i.extensions = [])
    (stack : Stack Bytes) (script : Program) (flags : Flags) (m : μ) :
    (∀ left, (i.eval stack script flags).outcome m = .ok left → script.Valid i.limits) ∧
    (∀ n s, (i.after (i.context script flags) stack n).outcome m = .ok s →
      s.conditions.length + Program.closed (script.take n) = Program.opened (script.take n)) := by
  constructor
  · intro left h
    rw [outcome_eval hext] at h
    obtain ⟨hsize, s, hsteps, hclosed, _⟩ := BuiltIn.eval_ok h
    exact BuiltIn.valid_of_steps (c := i.context script flags) hsize hsteps hclosed
  · intro n s h
    rw [outcome_after hext rfl] at h
    exact BuiltIn.conditions_after h

namespace Validity

/-- A branch that is taken, with a branch inside that is not and an opcode there that would fail. -/
def nested : Program :=
  [.push (.small (.num 0)), .push (.small (.num 1)), .control .opIf, .control .opIf,
   .bad .reserved, .control .opElse, .push (.small (.num 2)), .control .opEndIf,
   .control .opEndIf]

end Validity

open Validity in
/-- The inner branch is skipped and switched, and two conditions are open between. -/
theorem Interpreter.valid_of_eval_nested :
    plain.extensions = [] ∧
    (plain.eval [] nested .empty).outcome () = .ok [[2]] ∧ nested.Valid plain.limits ∧
    (plain.after (plain.context nested .empty) [] 6).outcome ()
      = .ok { conditions := [true, true], opCount := 3 } ∧
    2 + Program.closed (nested.take 6) = Program.opened (nested.take 6) := by
  have heval : (plain.eval [] nested .empty).outcome () = .ok [[2]] :=
    eq_ok_of_toOption (by decide +kernel)
  have hafter : (plain.after (plain.context nested .empty) [] 6).outcome ()
      = .ok { conditions := [true, true], opCount := 3 } := eq_ok_of_toOption (by decide +kernel)
  obtain ⟨hvalid, hcount⟩ := Interpreter.valid_of_eval plain rfl [] nested .empty ()
  exact ⟨rfl, heval, hvalid _ heval, hafter, hcount 6 _ hafter⟩

end SpendScript
