import SpendScript.Proofs.Effect
import SpendScript.Proofs.Push
/-!
# Scripts that only push

A script that only pushes looks at nothing but the rules and the limits, and what it leaves is read
off the script.

What this file fixes:

* `BuiltIn.steps_eq_of_isPushOnly` -- where such a script stands, and in which script, is no matter.
* `Program.pushes`, `BuiltIn.eq_of_steps_pushOnly` -- what it leaves when it succeeds.
* `BuiltIn.step_push` -- a push that is well-formed, not too long and as short as the rules ask
  succeeds where there is room.
* `BuiltIn.eval_append_push` -- one push more at the end is one element more on the top.
-/

namespace SpendScript

variable {μ : Type}

/-- The elements that a script pushes, the last one on the top. -/
def Program.pushes (p : Program) : Stack Bytes := (p.filterMap Chunk.pushData?).reverse

theorem Program.pushes_cons_push (q : Push) (p : Program) :
    Program.pushes (.push q :: p) = p.pushes ++ [q.value] := List.reverse_cons

theorem Program.isPushOnly_cons {chunk : Chunk} {p : Program} :
    isPushOnly (chunk :: p) ↔ chunk.byte ≤ Chunk.lastPushByte ∧ p.isPushOnly := by
  unfold isPushOnly
  rw [List.all_cons, Bool.and_eq_true, decide_eq_true_iff]

/-- A push is not counted. -/
theorem State.counted_push (p : Push) (s : State) : s.counted (.push p) = s := by
  unfold counted
  rw [Interpreter.isCounted_push]
  rfl

namespace BuiltIn

variable {c c' : Context} {position position' : Nat} {s s' : State}

/-! ## 1. What a script that only pushes depends on -/

theorem step_eq_of_byte_le {chunk : Chunk} (h : chunk.byte ≤ Chunk.lastPushByte)
    (hflags : c.flags = c'.flags) (hlimits : c.limits = c'.limits) (s : State) :
    step c position chunk s = step c' position' chunk s := by
  have hdispatch : ∀ s, dispatch c position chunk s = dispatch c' position' chunk s := by
    intro s
    rcases Chunk.push_or_bad_of_byte_le h with ⟨p, rfl⟩ | ⟨b, rfl⟩
    · unfold dispatch Execute.chunk Execute.push
      rw [hflags]
    · rfl
  unfold step
  simp only [hlimits, hdispatch]

/-- **Such a script runs alike everywhere**, under the same rules and limits. -/
theorem steps_eq_of_isPushOnly {p : Program} (h : p.isPushOnly) (hflags : c.flags = c'.flags)
    (hlimits : c.limits = c'.limits) (s : State) :
    steps c position p s = steps c' position' p s := by
  induction p generalizing position position' s with
  | nil => rfl
  | cons chunk rest ih =>
    obtain ⟨hchunk, hrest⟩ := Program.isPushOnly_cons.mp h
    have hstep : step c position chunk s = step c' position' chunk s :=
      step_eq_of_byte_le hchunk hflags hlimits s
    rw [steps_cons, steps_cons, hstep]
    congr 1
    funext s
    exact ih hrest s

/-! ## 2. What it leaves -/

/-- A chunk that starts like a push and is accepted in a branch that is taken is a push, and it
pushes. -/
theorem eq_of_step_pushOnly {chunk : Chunk} (h : chunk.byte ≤ Chunk.lastPushByte)
    (hactive : s.isActive) (hstep : (step c position chunk s).result = .ok s') :
    ∃ p, chunk = .push p ∧ s' = { s with stack := p.value :: s.stack } := by
  obtain ⟨_, _, _, hdispatch, _⟩ := step_ok hstep
  rw [dispatch_of_active (show (s.counted chunk).isActive from hactive)] at hdispatch
  rcases Chunk.push_or_bad_of_byte_le h with ⟨p, rfl⟩ | ⟨b, rfl⟩
  · obtain ⟨_, rfl⟩ := Execute.push_ok hdispatch
    rw [State.counted_push]
    exact ⟨p, rfl, rfl⟩
  · cases hdispatch

/-- **Such a script leaves what it pushes**, on what was there, and changes nothing else. -/
theorem eq_of_steps_pushOnly {p : Program} (h : p.isPushOnly) (hactive : s.isActive)
    (hsteps : (steps c position p s).result = .ok s') :
    s' = { s with stack := p.pushes ++ s.stack } := by
  induction p generalizing position s with
  | nil => cases hsteps; rfl
  | cons chunk rest ih =>
    obtain ⟨hchunk, hrest⟩ := Program.isPushOnly_cons.mp h
    obtain ⟨between, hstep, hsteps⟩ := Run.eq_ok_of_bind hsteps
    obtain ⟨p, rfl, rfl⟩ := eq_of_step_pushOnly hchunk hactive hstep
    rw [ih (s := { s with stack := p.value :: s.stack }) hrest hactive hsteps,
      Program.pushes_cons_push, List.append_assoc]
    rfl

/-! ## 3. One push more -/

/-- A chunk that passes all checks and succeeds, as a step. -/
theorem step_of_chunk {chunk : Chunk}
    (hpasses : Interpreter.badPush? c.limits chunk = none ∧ Interpreter.forbidden? chunk = none)
    (hops : Interpreter.isCounted chunk → s.opCount + 1 ≤ c.limits.maxOpCount)
    (hactive : s.isActive) (hchunk : Execute.chunk c position (s.counted chunk) chunk = pure s')
    (hdepth : s'.depth ≤ c.limits.maxStackSize) : step c position chunk s = pure s' := by
  rw [step_of_passes hpasses hops hactive, hchunk, pure_bind, checkDepth_of_le hdepth]

/-- **A push succeeds** if its form says its length, the limit on pushes lets it, it is as short as
the rules ask, and there is room. -/
theorem step_push {p : Push} {bytes : Bytes} (hp : p.Shortest bytes)
    (hlength : bytes.length ≤ c.limits.maxPushSize) (hactive : s.isActive)
    (hdepth : s.depth < c.limits.maxStackSize) (position : Nat) :
    step c position (.push p) s = pure { s with stack := bytes :: s.stack } := by
  have hpasses : Interpreter.badPush? c.limits (.push p) = none :=
    badPush?_eq_none_iff.mpr ⟨hp.wellFormed, by rw [hp.value]; exact hlength⟩
  have hpush : Execute.push c p s = .ok { s with stack := bytes :: s.stack } := by
    unfold Execute.push
    rw [hp.isMinimal, Bool.not_true, Bool.and_false, hp.value]
    rfl
  refine step_of_chunk ⟨hpasses, rfl⟩ (fun h => ?_) hactive ?_ ?_
  · rw [Interpreter.isCounted_push] at h
    cases h
  · rw [State.counted_push]
    show Run.ofExcept (Execute.push c p s) = _
    rw [hpush]
    rfl
  · have hmore : s.stack.length + 1 + s.alt.length ≤ c.limits.maxStackSize := by
      unfold State.depth at hdepth
      omega
    exact hmore

/-- **One push more at the end of such a script** is one element more on the top of what it
leaves. -/
theorem eval_append_push {i : Interpreter μ} {stack : Stack Bytes} {sig : Program} {flags : Flags}
    {p : Push} {bytes : Bytes} (hsig : sig.isPushOnly) (hp : p.Shortest bytes)
    (hlength : bytes.length ≤ i.limits.maxPushSize)
    (hsize : Program.byteLength (sig ++ [.push p]) ≤ i.limits.maxScriptSize)
    (hroom : ∀ left, (eval i stack sig flags).result = .ok left →
      left.length < i.limits.maxStackSize) :
    eval i stack (sig ++ [.push p]) flags = (bytes :: ·) <$> eval i stack sig flags := by
  have hshorter : Program.byteLength sig ≤ i.limits.maxScriptSize := by
    rw [Program.byteLength_eq, Program.encode_append, List.length_append] at hsize
    rw [Program.byteLength_eq]
    omega
  have heval := eval_of_byteLength_le hshorter stack flags
  have hmoved : steps (i.context (sig ++ [.push p]) flags) 0 sig (.initial stack)
      = steps (i.context sig flags) 0 sig (.initial stack) := by
    apply steps_eq_of_isPushOnly hsig
    · rfl
    · rfl
  rw [eval_of_byteLength_le hsize, heval, steps_append, hmoved, bind_assoc, map_bind]
  refine Run.bind_congr fun s hs => ?_
  -- what is left is known now: what the script pushed, and nothing on the other stack
  have hleft := eq_of_steps_pushOnly hsig rfl hs
  have hfinish : Interpreter.finish s = .ok s.stack := by
    rw [hleft]
    rfl
  have hdepth : s.depth < i.limits.maxStackSize := by
    have hroom := hroom s.stack (by rw [heval, Run.result_bind, hs]; exact hfinish)
    rw [hleft] at hroom ⊢
    exact hroom
  have hactive : s.isActive := by
    rw [hleft]
    rfl
  have hstep := step_push (c := i.context (sig ++ [.push p]) flags) hp hlength hactive hdepth
    (0 + sig.length)
  rw [steps_cons, hstep, pure_bind, hfinish]
  show Run.ofExcept (Interpreter.finish { s with stack := bytes :: s.stack }) = _
  rw [hleft]
  rfl

end BuiltIn

end SpendScript
