import SpendScript.Proofs.ElementSize
import SpendScript.Proofs.Trace
/-!
# What a run can use up

Limits are looked at where something grows, and each in its own place: the length of a push, the
count of operations in two places, both stacks after every chunk. This file says that they hold
together between any two chunks of any run.

What this file fixes:

* `Interpreter.keysAt`, `Interpreter.keysBefore` -- how many keys the chunk at a position names, if
  it is run, and how many those before it named.
* `Interpreter.WithinLimits` -- the limits between two chunks, with what exactly is counted.
* `Interpreter.withinLimits` -- every prefix of a script that is accepted leaves the machine within
  its limits.
-/

namespace SpendScript

variable {μ : Type}

/-- A chunk that opens a branch counts, so that branches are no deeper than operations are many. -/
theorem Chunk.nesting?_le {chunk : Chunk} {depth depth' : Nat}
    (h : chunk.nesting? depth = some depth') :
    depth' ≤ depth + if Interpreter.isCounted chunk then 1 else 0 := by
  cases chunk with
  | control op =>
    have hcounted : Interpreter.isCounted (.control op) = true := by cases op <;> decide
    rw [if_pos hcounted]
    cases op with
    | opIf | opNotIf => cases h; exact Nat.le_refl _
    | opElse =>
      change (if depth = 0 then none else some depth) = some depth' at h
      split at h
      · cases h
      · cases h; omega
    | opEndIf =>
      change (if depth = 0 then none else some (depth - 1)) = some depth' at h
      split at h
      · cases h
      · cases h; omega
  | push | operation | disabled | bad =>
    cases h
    exact Nat.le_add_right _ _

namespace Interpreter

/-- How many keys the chunk at a position names, if it is a check of several signatures that is run,
and zero if it is not. -/
def keysAt (i : Interpreter μ) (c : Context) (stack : Stack Bytes) (m : μ) (n : Nat) : Nat :=
  match c.script[n]?, (i.after c stack n).outcome m with
  | some chunk, .ok s => if s.isActive then Execute.keysNamed c s.stack chunk else 0
  | _, _ => 0

/-- How many keys the chunks before a position named, those of them that were run. -/
def keysBefore (i : Interpreter μ) (c : Context) (stack : Stack Bytes) (m : μ) : Nat → Nat
  | 0 => 0
  | n + 1 => i.keysBefore c stack m n + i.keysAt c stack m n

/-- **The limits between two chunks.** Both stacks together are looked at after each chunk, so that
the limit holds once a chunk was run. What counts as an operation is every chunk above the pushes,
run or skipped, and every key of the checks of several signatures that were run. -/
structure WithinLimits (i : Interpreter μ) (c : Context) (stack : Stack Bytes) (m : μ) (n : Nat)
    (s : State) : Prop where
  depth : 0 < n → s.stack.length + s.alt.length ≤ c.limits.maxStackSize
  opCount : s.opCount = (c.script.take n).countP isCounted + i.keysBefore c stack m n
  withinOps : s.opCount ≠ 0 → s.opCount ≤ c.limits.maxOpCount
  elements : s.Within c.limits.maxPushSize
  beginCode : s.beginCode ≤ n
  nesting : s.conditions.length ≤ s.opCount

/-- The limits hold before the first chunk. -/
theorem withinLimits_initial (i : Interpreter μ) {c : Context} {stack : Stack Bytes} (m : μ)
    (hstack : stack.Within c.limits.maxPushSize) :
    i.WithinLimits c stack m 0 (.initial stack) where
  depth h := absurd h (Nat.lt_irrefl 0)
  opCount := rfl
  withinOps h := absurd rfl h
  elements := ⟨hstack, .nil _⟩
  beginCode := Nat.le_refl 0
  nesting := Nat.le_refl 0

/-- **One chunk more** keeps the machine within its limits. -/
theorem WithinLimits.succ {i : Interpreter μ} (hext : i.extensions = []) {c : Context}
    (hc : c.checker = i.checker) (hsize : 32 ≤ c.limits.maxPushSize) {stack : Stack Bytes} {m : μ}
    {n : Nat} {chunk : Chunk} {s s' : State} (hchunk : c.script[n]? = some chunk)
    (hs : (BuiltIn.after c stack n).result = .ok s)
    (hstep : (BuiltIn.step c n chunk s).result = .ok s') (h : i.WithinLimits c stack m n s) :
    i.WithinLimits c stack m (n + 1) s' := by
  have heffect := BuiltIn.effect_step hstep
  have hkeys : i.keysAt c stack m n
      = if s.isActive then Execute.keysNamed c s.stack chunk else 0 := by
    unfold keysAt
    rw [hchunk, outcome_after hext hc, hs]
  have hcount : (c.script.take (n + 1)).countP isCounted
      = (c.script.take n).countP isCounted + if isCounted chunk then 1 else 0 := by
    rw [List.take_add_one, hchunk, Option.toList_some, List.countP_append, List.countP_singleton]
  refine ⟨fun _ => heffect.depth, ?opCount, fun hne => ?withinOps,
    BuiltIn.within_step hsize h.elements hstep, ?beginCode, ?nesting⟩
  case opCount =>
    rw [heffect.opCount, h.opCount, hcount, keysBefore, hkeys]
    omega
  case withinOps =>
    rcases heffect.withinOps with heq | hle
    · rw [heq] at hne ⊢
      exact h.withinOps hne
    · exact hle
  case beginCode =>
    rw [heffect.beginCode]
    split
    · exact Nat.le_refl _
    · exact Nat.le_succ_of_le h.beginCode
  case nesting =>
    have hopened := Chunk.nesting?_le heffect.nesting
    have hnesting := h.nesting
    have hops := heffect.opCount
    omega

/-- **Every run stays within its limits.** Without extensions, if the limit on pushes holds a digest
and no element is longer than it to begin with: between any two chunks, whatever the script, the
rules and the checker, all limits hold together. -/
theorem withinLimits (i : Interpreter μ) (hext : i.extensions = [])
    (hsize : 32 ≤ i.limits.maxPushSize) (stack : Stack Bytes)
    (hstack : stack.Within i.limits.maxPushSize) (script : Program) (flags : Flags) (n : Nat)
    (hn : n ≤ script.length) (m : μ) (s : State)
    (h : (i.after (i.context script flags) stack n).outcome m = .ok s) :
    i.WithinLimits (i.context script flags) stack m n s := by
  rw [outcome_after hext rfl] at h
  exact BuiltIn.after_induction (motive := i.WithinLimits (i.context script flags) stack m)
    (withinLimits_initial i m hstack)
    (fun _ _ _ _ hchunk hs hstep ih => ih.succ hext rfl hsize hchunk hs hstep) hn h

end Interpreter

namespace Resources

/-- An interpreter without extensions. -/
def interpreter : Interpreter Unit := { baseFlags := .empty, checker := .rejecting }

/-- A check of no signature with one key, and another one in a branch that is not taken. -/
def checks : Program :=
  [.push (.small (.num 0)), .push (.small (.num 0)), .push (.small (.num 2)),
   .push (.small (.num 1)), .operation .checkMultisig, .control .opNotIf,
   .operation .checkMultisig, .control .opEndIf]

end Resources

open Resources in
/-- Four chunks count as operations and one key does, since the second check is skipped. -/
theorem Interpreter.withinLimits_checks :
    interpreter.extensions = [] ∧ 32 ≤ interpreter.limits.maxPushSize ∧
    (interpreter.after (interpreter.context checks .empty) [] 8).outcome ()
      = .ok { opCount := 5 } ∧
    interpreter.keysBefore (interpreter.context checks .empty) [] () 8 = 1 ∧
    interpreter.WithinLimits (interpreter.context checks .empty) [] () 8 { opCount := 5 } := by
  have hsize : 32 ≤ interpreter.limits.maxPushSize := by decide
  have hafter : (interpreter.after (interpreter.context checks .empty) [] 8).outcome ()
      = .ok { opCount := 5 } := eq_ok_of_toOption (by decide +kernel)
  have hkeys : interpreter.keysBefore (interpreter.context checks .empty) [] () 8 = 1 := by
    decide +kernel
  exact ⟨rfl, hsize, hafter, hkeys, Interpreter.withinLimits interpreter rfl hsize [] (.nil _)
    checks .empty 8 (Nat.le_refl 8) () { opCount := 5 } hafter⟩

end SpendScript
