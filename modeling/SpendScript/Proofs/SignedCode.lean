import SpendScript.Proofs.Effect
import SpendScript.Proofs.Push
import SpendScript.Proofs.Questions
import SpendScript.Proofs.Trace
/-!
# What a signature covers

A signature covers the part of the script after the last separator that was run, without the pushes
of the signatures that are checked together. The machine only keeps a position; this file says that
over whole runs the code that is shown to the checker is this part, and nothing else.

What this file fixes:

* `Program.without` -- a script without the shortest data pushes of some byte strings.
* `Interpreter.separates`, `Interpreter.codeStart` -- which chunks are separators that were run, and
  the position after the last of them before a chunk.
* `BuiltIn.beginCode_after` -- that position is the one that the machine keeps, at every point of
  every run.
* `Interpreter.signedCode` -- the code of every question about a signature, asked anywhere in a run.
-/

namespace SpendScript

variable {μ : Type}

/-! ## 1. Scripts without signatures -/

namespace Program

/-- The script without the chunks that are the shortest data push of one of the byte strings. -/
def without (sigs : List Bytes) (p : Program) : Program :=
  p.filter fun c => sigs.all fun sig => c.encode != DataPush.written sig

/-- Taking byte strings out one after the other is taking all of them out. -/
theorem foldl_findAndDelete (p : Program) (sigs : List Bytes) :
    sigs.foldl findAndDelete p = p.without sigs := by
  unfold without
  induction sigs generalizing p with
  | nil => exact (List.filter_eq_self.mpr fun _ _ => rfl).symm
  | cons sig sigs ih =>
    rw [List.foldl_cons, ih, findAndDelete, List.filter_filter]
    congr 1
    funext c
    rw [List.all_cons, Bool.and_comm]

theorem without_append (sigs : List Bytes) (p q : Program) :
    (p ++ q).without sigs = p.without sigs ++ q.without sigs := List.filter_append ..

/-- The order of the byte strings does not matter. -/
theorem without_reverse (sigs : List Bytes) (p : Program) :
    p.without sigs.reverse = p.without sigs := by
  unfold without
  simp only [List.all_reverse]

/-- An opcode that counts stays. -/
theorem without_cons_of_isCounted {sigs : List Bytes} {c : Chunk}
    (h : Interpreter.isCounted c) (p : Program) :
    without sigs (c :: p) = c :: p.without sigs := by
  refine List.filter_cons_of_pos (List.all_eq_true.mpr fun sig _ => ?_)
  exact bne_iff_ne.mpr (Chunk.encode_ne_written h sig)

end Program

theorem Execute.scriptCode_eq (c : Context) (s : State) (sigs : List Bytes) :
    scriptCode c s sigs = (Program.without sigs (c.script.drop s.beginCode)).encode := by
  unfold scriptCode Program.subscript
  rw [Program.foldl_findAndDelete]

/-- A chunk that takes signatures off the stack is an opcode that counts. -/
theorem Execute.isCounted_of_mem_signaturesOf {c : Context} {stack : Stack Bytes} {chunk : Chunk}
    {sig : Bytes} (h : sig ∈ signaturesOf c stack chunk) : Interpreter.isCounted chunk := by
  cases chunk with
  | operation op => exact Interpreter.isCounted_operation op
  | push | control | disabled | bad => cases h

/-! ## 2. The last separator that was run -/

/-- The last position below a bound that passes a test, and after it the position that follows;
zero if none does. -/
def afterLast (test : Nat → Bool) (n : Nat) : Nat :=
  match ((List.range n).filter test).getLast? with
  | none => 0
  | some k => k + 1

theorem afterLast_succ (test : Nat → Bool) (n : Nat) :
    afterLast test (n + 1) = if test n then n + 1 else afterLast test n := by
  unfold afterLast
  rw [List.range_succ, List.filter_append]
  by_cases h : test n = true
  · rw [if_pos h, List.filter_cons_of_pos h, List.filter_nil, List.getLast?_append,
      List.getLast?_singleton]
    rfl
  · rw [if_neg h, List.filter_cons_of_neg h, List.filter_nil, List.append_nil]

theorem afterLast_le (test : Nat → Bool) (n : Nat) : afterLast test n ≤ n := by
  induction n with
  | zero => exact Nat.le_refl 0
  | succ n ih =>
    rw [afterLast_succ]
    split
    · exact Nat.le_refl _
    · exact Nat.le_succ_of_le ih

/-- Whether the chunk at a position is a separator that is run: one in a branch that is taken. -/
def Interpreter.separates (i : Interpreter μ) (c : Context) (stack : Stack Bytes) (m : μ)
    (n : Nat) : Bool :=
  match c.script[n]?, (i.after c stack n).outcome m with
  | some chunk, .ok s => s.isActive && chunk.isCodeSeparator
  | _, _ => false

/-- Where the code starts that signatures cover at a position: after the last separator that was
run before it, and at the start of the script if there was none. -/
def Interpreter.codeStart (i : Interpreter μ) (c : Context) (stack : Stack Bytes) (m : μ) :
    Nat → Nat := afterLast (i.separates c stack m)

/-- **The machine keeps the position after the last separator that was run**, by induction along
the run: only such a separator moves it. -/
theorem Interpreter.beginCode_after {i : Interpreter μ} (hext : i.extensions = []) {c : Context}
    (hc : c.checker = i.checker) {stack : Stack Bytes} {n : Nat} {s : State} (m : μ)
    (hn : n ≤ c.script.length) (h : (BuiltIn.after c stack n).result = .ok s) :
    s.beginCode = i.codeStart c stack m n := by
  refine BuiltIn.after_induction (motive := fun n s => s.beginCode = i.codeStart c stack m n)
    rfl ?_ hn h
  intro n chunk s s' hchunk hs hstep ih
  have hseparates : i.separates c stack m n = (s.isActive && chunk.isCodeSeparator) := by
    unfold separates
    rw [hchunk, outcome_after hext hc, hs]
  unfold codeStart at ih ⊢
  rw [(BuiltIn.effect_step hstep).beginCode, afterLast_succ, hseparates, ih]

/-! ## 3. The interpreter -/

/-- **What every question about a signature shows the checker.** Without extensions, whatever the
script, the stack, the rules and the checker: a question of an evaluation is asked by one of its
chunks, on the machine that the chunks before it leave. If it is about a signature, its code is the
script from the last separator that was run, without the shortest data pushes of the signatures
that the chunk takes off the stack, looked at or not, and only these; the chunk itself stays in. -/
theorem Interpreter.signedCode (i : Interpreter (List Query)) (hi : i.Recording)
    (stack : Stack Bytes) (script : Program) (flags : Flags) :
    let c := i.context script flags
    (∀ q ∈ (i.eval stack script flags).memory [],
      ∃ position chunk s, script[position]? = some chunk ∧
        (i.after c stack position).outcome [] = .ok s ∧
        q ∈ (i.step c position chunk s).memory []) ∧
    (∀ position chunk s sig key code answer, script[position]? = some chunk →
      (i.after c stack position).outcome [] = .ok s →
      .signature sig key code answer ∈ (i.step c position chunk s).memory [] →
      let start := i.codeStart c stack [] position
      let sigs := Execute.signaturesOf c s.stack chunk
      let signed := (script.subscript start).without sigs
      sig ∈ sigs ∧ start ≤ position ∧ code = signed.encode ∧
        signed = Program.without sigs ((script.take position).drop start)
          ++ chunk :: Program.without sigs (script.drop (position + 1))) := by
  intro c
  have hafter : ∀ n, (i.after c stack n).outcome [] = (BuiltIn.after c stack n).result :=
    fun n => outcome_after hi.extensions rfl stack n []
  have hstep : ∀ position chunk s,
      (i.step c position chunk s).memory [] = (BuiltIn.step c position chunk s).asked :=
    hi.memory_step rfl
  constructor
  · intro q hq
    rw [hi.memory_eval] at hq
    obtain ⟨_, _, hq⟩ := Run.mem_asked_ofExcept_bind hq
    rcases Run.mem_asked_bind hq with hq | ⟨_, _, hq⟩
    · obtain ⟨n, chunk, s, hchunk, hs, hasked⟩ := BuiltIn.exists_of_mem_asked_steps hq
      rw [Nat.zero_add] at hasked
      exact ⟨n, chunk, s, hchunk, (hafter n).trans hs, by rw [hstep]; exact hasked⟩
    · cases hq
  · intro position chunk s sig key code answer hchunk hs hq start sigs signed
    rw [hafter] at hs
    rw [hstep] at hq
    obtain ⟨sig', key', hmem, _, heq⟩ :=
      Execute.mem_asked_chunk (BuiltIn.mem_asked_step hq) rfl
    obtain ⟨hlt, hget⟩ := List.getElem?_eq_some_iff.mp hchunk
    have hbegin : s.beginCode = start :=
      beginCode_after hi.extensions rfl [] (Nat.le_of_lt hlt) hs
    have hstart : start ≤ position := afterLast_le _ _
    cases heq
    refine ⟨hmem, hstart, ?_, ?_⟩
    · rw [Execute.scriptCode_eq]
      exact congrArg (fun n => (Program.without sigs (script.drop n)).encode) hbegin
    · -- the chunk that asks counts as an operation, so it is no written push and stays in
      have hsplit : script.drop start
          = (script.take position).drop start ++ chunk :: script.drop (position + 1) := by
        rw [← hget, ← List.drop_eq_getElem_cons hlt, ← List.drop_append_of_le_length,
          List.take_append_drop]
        rwa [List.length_take_of_le (Nat.le_of_lt hlt)]
      show Program.without _ (script.drop start) = _
      rw [hsplit, Program.without_append,
        Program.without_cons_of_isCounted (Execute.isCounted_of_mem_signaturesOf hmem)]

namespace SignedCode

/-- A separator, a second one in a branch that is not taken, and a check of a signature that the
script pushes itself. -/
def separated : Program :=
  [.operation .codeSeparator, .push (.small (.num 0)), .control .opIf, .operation .codeSeparator,
   .control .opEndIf, .push (.data ⟨.direct, [0x51]⟩), .push (.data ⟨.direct, [0x52]⟩),
   .operation .checkSig]

/-- The machine before the check. -/
def beforeCheck : State := { stack := [[0x52], [0x51]], opCount := 4, beginCode := 1 }

/-- The question of the check. -/
def question : Query := .signature [0x51] [0x52] [0x00, 0x63, 0xab, 0x68, 0x01, 0x52, 0xac] false

end SignedCode

open SignedCode in
/-- The code starts after the first separator, keeps the second one, and lacks the signature. -/
theorem Interpreter.signedCode_separated :
    recorder.Recording ∧ (recorder.eval [] separated .empty).memory [] = [question] ∧
    ((separated.subscript 1).without [[0x51]]).encode
      = [0x00, 0x63, 0xab, 0x68, 0x01, 0x52, 0xac] := by
  have heval : (recorder.eval [] separated .empty).memory [] = [question] := by decide +kernel
  have hs : (recorder.after (recorder.context separated .empty) [] 7).outcome []
      = .ok beforeCheck := eq_ok_of_toOption (by decide +kernel)
  have hstep : (recorder.step (recorder.context separated .empty) 7 (.operation .checkSig)
      beforeCheck).memory [] = [question] := by decide +kernel
  have hstart : recorder.codeStart (recorder.context separated .empty) [] [] 7 = 1 := by
    decide +kernel
  have hasked : question ∈ (recorder.step (recorder.context separated .empty) 7
      (.operation .checkSig) beforeCheck).memory [] := hstep ▸ List.mem_singleton_self question
  obtain ⟨_, hcode⟩ := Interpreter.signedCode recorder recording_recorder [] separated .empty
  obtain ⟨_, _, hcode, _⟩ := hcode 7 _ beforeCheck _ _ _ _ rfl hs hasked
  rw [hstart] at hcode
  exact ⟨recording_recorder, heval, hcode.symm⟩

end SpendScript
