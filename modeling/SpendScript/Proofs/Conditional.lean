import SpendScript.Template
import SpendScript.Proofs.Conditional.Nested
/-!
# Structured conditionals

The machine has no tree of branches, only a condition for each that is open. Running through a
conditional is nevertheless running the branch that its condition chooses, and that branch alone.

What this file fixes:

* `Chunk.Skippable` -- what may stand in a branch that is not taken.
* `BuiltIn.steps_skipped` -- a part of a script in such a branch changes only the count of
  operations.
* `Program.conditional` -- both branches with the opcodes around them.
* `Interpreter.conditional_taken` -- the flat run through a conditional is the run of one branch.
-/

namespace SpendScript

variable {μ : Type}

/-! ## 1. Branches that are not taken -/

/-- Whether a chunk does no harm where it is skipped: no push that says its length wrongly or
pushes too much, and none of the opcodes that fail wherever they stand. -/
def Chunk.Skippable (limits : Limits) : Chunk → Prop
  | .push p => p.WellFormed ∧ p.value.length ≤ limits.maxPushSize
  | .disabled _ => False
  | .bad b => b ≠ .verIf ∧ b ≠ .verNotIf
  | .control _ | .operation _ => True

instance (limits : Limits) (chunk : Chunk) : Decidable (chunk.Skippable limits) :=
  match chunk with
  | .push p => inferInstanceAs (Decidable (p.WellFormed ∧ p.value.length ≤ limits.maxPushSize))
  | .disabled _ => .isFalse id
  | .bad b => inferInstanceAs (Decidable (b ≠ .verIf ∧ b ≠ .verNotIf))
  | .control _ | .operation _ => .isTrue trivial

theorem Chunk.Skippable.passes {limits : Limits} {chunk : Chunk} (h : chunk.Skippable limits) :
    Interpreter.badPush? limits chunk = none ∧ Interpreter.forbidden? chunk = none := by
  cases chunk with
  | push p => exact ⟨BuiltIn.badPush?_eq_none_iff.mpr h, rfl⟩
  | control op => exact ⟨rfl, rfl⟩
  | operation op => exact ⟨rfl, rfl⟩
  | disabled d => exact absurd h id
  | bad b =>
    refine ⟨rfl, ?_⟩
    cases b with
    | verIf => exact absurd rfl h.1
    | verNotIf => exact absurd rfl h.2
    | reserved | ver | reserved1 | reserved2 | unknown => rfl

/-- What passes the checks that hold in every branch does no harm where it is skipped. -/
theorem Chunk.skippable_of_passes {limits : Limits} {chunk : Chunk}
    (h : Interpreter.badPush? limits chunk = none ∧ Interpreter.forbidden? chunk = none) :
    chunk.Skippable limits := by
  obtain ⟨hpush, hforbidden⟩ := h
  cases chunk with
  | push p => exact BuiltIn.badPush?_eq_none_iff.mp hpush
  | control op => exact trivial
  | operation op => exact trivial
  | disabled d => cases hforbidden
  | bad b =>
    cases b with
    | verIf | verNotIf => cases hforbidden
    | reserved | ver | reserved1 | reserved2 | unknown => exact ⟨nofun, nofun⟩

namespace Execute

variable {s : State}

/-- Opening a branch in one that is taken reads the top as a truth value. -/
theorem openBranch_of_active {top : Bytes} {below : Stack Bytes} (hactive : s.isActive)
    (hstack : s.stack = top :: below) (expected : Bool) : openBranch expected s = .ok { s with
      stack := below
      conditions := (truthy top == expected) :: s.conditions } := by
  unfold openBranch
  rw [if_pos hactive, hstack]

/-- Opening a branch in one that is not taken reads nothing. -/
theorem openBranch_of_skipped (hinactive : s.isActive = false) (expected : Bool) :
    openBranch expected s = .ok { s with conditions := false :: s.conditions } := by
  unfold openBranch
  rw [hinactive]
  rfl

end Execute

namespace BuiltIn

variable {c : Context} {s s' : State}

/-- What passes the checks is only counted. -/
theorem accept_of_passes {limits : Limits} {chunk : Chunk}
    (h : Interpreter.badPush? limits chunk = none ∧ Interpreter.forbidden? chunk = none)
    (s : State) : Run.WithinOps (.ofExcept (Interpreter.accept limits chunk s))
      (pure { s with opCount := s.opCount + if Interpreter.isCounted chunk then 1 else 0 }) := by
  unfold Interpreter.accept
  rw [h.1, h.2]
  dsimp only
  by_cases hcounted : Interpreter.isCounted chunk
  · by_cases hmore : limits.maxOpCount < s.opCount + 1
    · left
      simp only [hcounted, if_true, true_and]
      rw [if_pos hmore]
      rfl
    · right
      simp only [hcounted, if_true, true_and]
      rw [if_neg hmore]
      rfl
  · right
    simp only [hcounted]
    rfl

/-- An opcode that opens, switches or closes a branch acts in whatever branch. -/
theorem dispatch_control (position : Nat) (op : Control) :
    dispatch c position (.control op) s = .ofExcept (Execute.control op s) := by
  unfold dispatch
  split <;> rfl

/-- Such an opcode as a step of its own. -/
theorem step_control {op : Control}
    (h : Execute.control op { s with opCount := s.opCount + 1 } = .ok s')
    (hdepth : s'.depth ≤ c.limits.maxStackSize) (position : Nat) :
    Run.WithinOps (step c position (.control op) s) (pure s') := by
  have hcounted : Interpreter.isCounted (.control op) = true := by cases op <;> decide
  have hpasses : Interpreter.badPush? c.limits (.control op) = none ∧
      Interpreter.forbidden? (.control op) = none := ⟨rfl, rfl⟩
  have haccept := accept_of_passes hpasses s
  rw [hcounted, if_pos rfl] at haccept
  refine .pure_bind haccept (.pure_bind (a := s') ?_ ?_)
  · rw [dispatch_control, h]
    exact .refl _
  · rw [checkDepth_of_le hdepth]
    exact .refl _

/-- In a skipped branch the opcodes of its own branches keep to these. -/
theorem control_skipped {depth depth' : Nat} {op : Control} {outer : Stack Bool}
    (hnest : (Chunk.control op).nesting? depth = some depth')
    (hcond : s.conditions.drop depth = false :: outer) (hinactive : s.isActive = false) :
    ∃ conditions : Stack Bool, conditions.drop depth' = false :: outer ∧
      Execute.control op s = .ok { s with conditions } := by
  have hopen := Execute.openBranch_of_skipped hinactive
  cases op with
  | opIf => cases hnest; exact ⟨false :: s.conditions, hcond, hopen true⟩
  | opNotIf => cases hnest; exact ⟨false :: s.conditions, hcond, hopen false⟩
  | opElse =>
    cases depth with
    | zero => cases hnest
    | succ depth =>
      cases hnest
      obtain ⟨stack, alt, opCount, conditions, beginCode⟩ := s
      cases conditions with
      | nil => cases hcond
      | cons b rest => exact ⟨(!b) :: rest, hcond, rfl⟩
  | opEndIf =>
    cases depth with
    | zero => cases hnest
    | succ depth =>
      cases hnest
      obtain ⟨stack, alt, opCount, conditions, beginCode⟩ := s
      cases conditions with
      | nil => cases hcond
      | cons b rest => exact ⟨rest, hcond, rfl⟩

theorem isActive_of_drop {depth : Nat} {outer : Stack Bool}
    (hcond : s.conditions.drop depth = false :: outer) : s.isActive = false := by
  have hmem : false ∈ s.conditions := by
    apply List.mem_of_mem_drop (i := depth)
    rw [hcond]
    exact List.mem_cons_self
  exact List.all_eq_false.mpr ⟨false, hmem, Bool.false_ne_true⟩

/-- **One skipped chunk**: the condition that is false stays where it is, under those of the
branches that were opened since. -/
theorem step_skipped {depth depth' : Nat} {chunk : Chunk} {outer : Stack Bool}
    (hskip : chunk.Skippable c.limits) (hnest : chunk.nesting? depth = some depth')
    (hcond : s.conditions.drop depth = false :: outer)
    (hdepth : s.depth ≤ c.limits.maxStackSize) (position : Nat) :
    ∃ conditions : Stack Bool, conditions.drop depth' = false :: outer ∧
      Run.WithinOps (step c position chunk s) (pure { s with
        conditions
        opCount := s.opCount + if Interpreter.isCounted chunk then 1 else 0 }) := by
  have haccept := accept_of_passes hskip.passes s
  generalize hcount : s.opCount + (if Interpreter.isCounted chunk then 1 else 0) = opCount
  rw [hcount] at haccept
  have hinactive : ({ s with opCount } : State).isActive = false := isActive_of_drop hcond
  have hstep : ∀ conditions : Stack Bool,
      dispatch c position chunk { s with opCount } = pure { s with opCount, conditions } →
      Run.WithinOps (step c position chunk s) (pure { s with opCount, conditions }) := by
    intro conditions hdispatch
    refine .pure_bind haccept (.pure_bind (.inr hdispatch) (.inr ?_))
    exact checkDepth_of_le hdepth
  cases chunk with
  | control op =>
    obtain ⟨conditions, hdrop, hcontrol⟩ :=
      control_skipped (s := { s with opCount }) hnest hcond hinactive
    refine ⟨conditions, hdrop, hstep conditions ?_⟩
    rw [dispatch_control, hcontrol]
    rfl
  | push | operation | disabled | bad =>
    cases hnest
    refine ⟨s.conditions, hcond, hstep s.conditions ?_⟩
    unfold dispatch
    rw [hinactive]
    rfl

/-- **A skipped part of a script** changes nothing but the count of operations, by induction on the
part: what is skipped stays skipped until its own branches are closed. -/
theorem steps_skipped {depth depth' : Nat} {p : Program} {outer : Stack Bool}
    (hskip : ∀ chunk ∈ p, chunk.Skippable c.limits) (hnest : p.nesting? depth = some depth')
    (hcond : s.conditions.drop depth = false :: outer)
    (hdepth : s.depth ≤ c.limits.maxStackSize) (position : Nat) :
    ∃ conditions : Stack Bool, conditions.drop depth' = false :: outer ∧
      Run.WithinOps (steps c position p s) (pure { s with
        conditions
        opCount := s.opCount + p.countP Interpreter.isCounted }) := by
  induction p generalizing depth position s with
  | nil => cases hnest; exact ⟨s.conditions, hcond, .refl _⟩
  | cons chunk rest ih =>
    obtain ⟨between, hchunk, hrest⟩ := Program.nesting?_cons hnest
    have hskipChunk := hskip chunk List.mem_cons_self
    have hskipRest := fun d hd => hskip d (List.mem_cons_of_mem chunk hd)
    obtain ⟨conditions, hdrop, hstep⟩ := step_skipped hskipChunk hchunk hcond hdepth position
    obtain ⟨conditions', hdrop', hsteps⟩ :=
      ih (s := { s with
          conditions
          opCount := s.opCount + if Interpreter.isCounted chunk then 1 else 0 })
        hskipRest hrest hdrop hdepth (position + 1)
    refine ⟨conditions', hdrop', ?_⟩
    have hcount : s.opCount + (chunk :: rest).countP Interpreter.isCounted
        = s.opCount + (if Interpreter.isCounted chunk then 1 else 0)
          + rest.countP Interpreter.isCounted := by
      rw [List.countP_cons]
      omega
    rw [steps_cons, hcount]
    exact .pure_bind hstep hsteps

end BuiltIn

/-! ## 2. Conditionals -/

/-- The opcode that takes the first branch where the top is true, or where it is not. -/
def Control.opener (expected : Bool) : Control := if expected then .opIf else .opNotIf

/-- Both branches with the opcodes around them. -/
def Program.conditional (expected : Bool) (thn els : Program) : Program :=
  .control (.opener expected) :: thn ++ .control .opElse :: els ++ [.control .opEndIf]

/-- More operations counted. -/
def State.addOps (ops : Nat) (s : State) : State := { s with opCount := s.opCount + ops }

namespace BuiltIn

variable {c : Context} {s : State} {expected : Bool} {t : Bytes} {below : Stack Bytes}
  {thn els : Program}

/-- With the top taken off the stacks are within the limit as well. -/
theorem depth_below (hstack : s.stack = t :: below) (hdepth : s.depth ≤ c.limits.maxStackSize) :
    ({ s with stack := below } : State).depth ≤ c.limits.maxStackSize := by
  have hshorter : below.length + s.alt.length ≤ c.limits.maxStackSize := by
    unfold State.depth at hdepth
    rw [hstack, List.length_cons] at hdepth
    omega
  exact hshorter

theorem step_opener (hactive : s.isActive) (hstack : s.stack = t :: below)
    (hdepth : s.depth ≤ c.limits.maxStackSize) (expected : Bool) (position : Nat) :
    Run.WithinOps (step c position (.control (.opener expected)) s) (pure { s with
      stack := below
      conditions := (truthy t == expected) :: s.conditions
      opCount := s.opCount + 1 }) := by
  have hopen := Execute.openBranch_of_active (s := { s with opCount := s.opCount + 1 })
    hactive hstack expected
  refine step_control ?_ ?_ position
  · cases expected with
    | true => exact hopen
    | false => exact hopen
  · exact depth_below hstack hdepth

theorem step_else {b : Bool} {outer : Stack Bool} (hcond : s.conditions = b :: outer)
    (hdepth : s.depth ≤ c.limits.maxStackSize) (position : Nat) :
    Run.WithinOps (step c position (.control .opElse) s)
      (pure { s with conditions := (!b) :: outer, opCount := s.opCount + 1 }) := by
  obtain ⟨stack, alt, opCount, conditions, beginCode⟩ := s
  cases hcond
  refine step_control ?_ ?_ position
  · rfl
  · exact hdepth

theorem step_endIf {b : Bool} {outer : Stack Bool} (hcond : s.conditions = b :: outer)
    (hdepth : s.depth ≤ c.limits.maxStackSize) (position : Nat) :
    Run.WithinOps (step c position (.control .opEndIf) s)
      (pure { s with conditions := outer, opCount := s.opCount + 1 }) := by
  obtain ⟨stack, alt, opCount, conditions, beginCode⟩ := s
  cases hcond
  refine step_control ?_ ?_ position
  · rfl
  · exact hdepth

/-- **The first branch is taken**: it is run, then the second one is skipped. -/
theorem steps_conditional_then (hthn : thn.Balanced) (hels : els.Balanced)
    (hskip : ∀ chunk ∈ els, chunk.Skippable c.limits) (hactive : s.isActive)
    (hstack : s.stack = t :: below) (hdepth : s.depth ≤ c.limits.maxStackSize)
    (ht : truthy t = expected) (position : Nat) :
    Run.WithinOps (steps c position (.conditional expected thn els) s)
      (State.addOps (els.countP Interpreter.isCounted + 3) <$>
        steps c (position + 1) thn { s with stack := below }) := by
  have hopen := step_opener hactive hstack hdepth expected position
  rw [ht, beq_self_eq_true] at hopen
  have hshorter := depth_below hstack hdepth
  simp only [Program.conditional, List.cons_append, List.append_assoc, ← bind_pure_comp]
  refine .pure_bind hopen ?_
  rw [steps_append]
  have hbranch : Run.WithinOps
      (steps c (position + 1) thn (State.nested 0 1 { s with stack := below }))
      (State.nested 0 1 <$> steps c (position + 1) thn { s with stack := below }) :=
    steps_nested hthn (position + 1)
  refine .map_bind hbranch fun s' hs' => ?_
  have hdepth' : s'.depth ≤ c.limits.maxStackSize := depth_le_of_steps hshorter hs'
  -- From here on the second branch is skipped: the condition on top is false.
  have helse := step_else (c := c) (s := s'.nested 0 1) (b := true) rfl hdepth'
    (position + 1 + thn.length)
  refine .pure_bind helse ?_
  rw [steps_append]
  obtain ⟨conditions, hcond, hskipped⟩ := steps_skipped hskip hels
    (s := { s'.nested 0 1 with
      conditions := false :: s'.conditions
      opCount := s'.opCount + 1 + 1 })
    rfl hdepth' (position + 1 + thn.length + 1)
  refine .pure_bind hskipped (.pure_bind (step_endIf hcond ?_ _) (.inr ?_))
  · exact hdepth'
  · have hcount : s'.opCount + 1 + 1 + els.countP Interpreter.isCounted + 1
        = s'.opCount + (els.countP Interpreter.isCounted + 3) := by omega
    show pure { s' with opCount := s'.opCount + 1 + 1 + els.countP Interpreter.isCounted + 1 } = _
    rw [hcount]
    rfl

/-- **The second branch is taken**: the first one is skipped, then it is run. -/
theorem steps_conditional_else (hthn : thn.Balanced) (hels : els.Balanced)
    (hskip : ∀ chunk ∈ thn, chunk.Skippable c.limits) (hactive : s.isActive)
    (hstack : s.stack = t :: below) (hdepth : s.depth ≤ c.limits.maxStackSize)
    (ht : truthy t ≠ expected) (position : Nat) :
    Run.WithinOps (steps c position (.conditional expected thn els) s)
      (State.addOps (thn.countP Interpreter.isCounted + 3) <$>
        steps c (position + thn.length + 2) els { s with stack := below }) := by
  have hopen := step_opener hactive hstack hdepth expected position
  have hfalse : (truthy t == expected) = false := beq_eq_false_iff_ne.mpr ht
  rw [hfalse] at hopen
  have hshorter := depth_below hstack hdepth
  simp only [Program.conditional, List.cons_append, List.append_assoc, ← bind_pure_comp]
  refine .pure_bind hopen ?_
  rw [steps_append]
  -- The first branch is skipped: the condition on top is false.
  obtain ⟨conditions, hcond, hskipped⟩ := steps_skipped hskip hthn
    (s := { s with
      stack := below
      conditions := false :: s.conditions
      opCount := s.opCount + 1 })
    rfl hshorter (position + 1)
  refine .pure_bind hskipped (.pure_bind (step_else hcond ?_ _) ?_)
  · exact hshorter
  have hposition : position + 1 + thn.length + 1 = position + thn.length + 2 := by omega
  rw [steps_append, hposition]
  have hbranch : Run.WithinOps
      (steps c (position + thn.length + 2) els
        (State.nested 0 (thn.countP Interpreter.isCounted + 2) { s with stack := below }))
      (State.nested 0 (thn.countP Interpreter.isCounted + 2) <$>
        steps c (position + thn.length + 2) els { s with stack := below }) :=
    steps_nested hels (position + thn.length + 2)
  have hcount : s.opCount + 1 + thn.countP Interpreter.isCounted + 1
      = s.opCount + (thn.countP Interpreter.isCounted + 2) := by omega
  rw [hcount]
  refine .map_bind hbranch fun s' hs' => ?_
  have hdepth' : s'.depth ≤ c.limits.maxStackSize := depth_le_of_steps hshorter hs'
  refine .pure_bind (step_endIf (s := s'.nested 0 _) (b := true) rfl hdepth' _) ?_
  exact .refl _

end BuiltIn

/-! ## 3. The interpreter -/

/-- **Running through a conditional is running one branch.** Without extensions, in a branch that is
taken, and as long as the limit on operations is not exceeded: the flat run is the run of the branch
that the top chooses, at its own position in the same script and with the top taken off. It ends
alike and asks the checker the same questions, and only the count of operations is higher, by what
was skipped and the three opcodes around the branches. -/
theorem Interpreter.conditional_taken (i : Interpreter μ) (hext : i.extensions = [])
    (flags : Flags) (before thn els after : Program) (expected : Bool) (hthn : thn.Balanced)
    (hels : els.Balanced) (s : State) (t : Bytes) (below : Stack Bytes) (hactive : s.isActive)
    (hstack : s.stack = t :: below) (hdepth : s.depth ≤ i.limits.maxStackSize) (m : μ) :
    let script := before ++ .conditional expected thn els ++ after
    let c := i.context script flags
    let flat := i.steps c before.length (.conditional expected thn els) s
    flat.outcome m ≠ .error (.plain .opCount) →
    (truthy t = expected → (∀ chunk ∈ els, chunk.Skippable i.limits) →
      flat = State.addOps (els.countP isCounted + 3) <$>
        i.steps c (before.length + 1) thn { s with stack := below }) ∧
    (truthy t ≠ expected → (∀ chunk ∈ thn, chunk.Skippable i.limits) →
      flat = State.addOps (thn.countP isCounted + 3) <$>
        i.steps c (before.length + thn.length + 2) els { s with stack := below }) := by
  intro script c flat
  have heq : ∀ position p s, i.steps c position p s
      = (BuiltIn.steps c position p s).observed i.observe :=
    steps_eq (dispatches_of_noExtensions hext) rfl
  have hflat : flat = (BuiltIn.steps c before.length (.conditional expected thn els) s).observed
      i.observe := heq ..
  rw [hflat, heq, heq, Run.outcome_observed, ← Run.observed_map, ← Run.observed_map]
  intro hops
  refine ⟨fun ht hskip => ?_, fun ht hskip => ?_⟩
  · have hbranch := BuiltIn.steps_conditional_then (c := c) hthn hels hskip hactive hstack hdepth ht
      before.length
    rcases hbranch with hmany | hrun
    · exact absurd hmany hops
    · rw [hrun]
  · have hbranch := BuiltIn.steps_conditional_else (c := c) hthn hels hskip hactive hstack hdepth ht
      before.length
    rcases hbranch with hmany | hrun
    · exact absurd hmany hops
    · rw [hrun]

namespace Conditional

/-- A branch that pushes a number. -/
def onTrue : Program := [.push (.small (.num 5))]

/-- A branch with a branch of its own, neither of which a script survives. -/
def onFalse : Program :=
  [.control .opNotIf, .operation .ret, .control .opElse, .operation .verify, .control .opEndIf]

/-- A conditional after the push of its condition. -/
def choice : Program := .push (.small (.num 1)) :: Template.branch onTrue onFalse

/-- An interpreter without extensions. -/
def interpreter : Interpreter Unit := { baseFlags := .empty, checker := .table [] 500 }

end Conditional

open Conditional in
/-- The second branch is skipped with the branches in it, and eight operations are counted. -/
theorem Interpreter.conditional_taken_choice :
    interpreter.extensions = [] ∧ onTrue.Balanced ∧ onFalse.Balanced ∧
    (∀ chunk ∈ onFalse, chunk.Skippable interpreter.limits) ∧
    interpreter.steps (interpreter.context choice .empty) 1 (Template.branch onTrue onFalse)
        { stack := [[1]] }
      = State.addOps 8 <$> interpreter.steps (interpreter.context choice .empty) 2 onTrue {} ∧
    (interpreter.steps (interpreter.context choice .empty) 1 (Template.branch onTrue onFalse)
        { stack := [[1]] }).outcome () = .ok { stack := [[5]], opCount := 8 } := by
  have hthn : onTrue.Balanced := by decide
  have hels : onFalse.Balanced := by decide
  have hskip : ∀ chunk ∈ onFalse, chunk.Skippable interpreter.limits := by decide
  have hend : (interpreter.steps (interpreter.context choice .empty) 1
      (Template.branch onTrue onFalse) { stack := [[1]] }).outcome ()
        = .ok { stack := [[5]], opCount := 8 } := rfl
  have hops : (interpreter.steps (interpreter.context choice .empty) 1
      (Template.branch onTrue onFalse) { stack := [[1]] }).outcome ()
        ≠ .error (.plain .opCount) := by
    rw [hend]
    exact fun h => nomatch h
  obtain ⟨htaken, -⟩ := Interpreter.conditional_taken interpreter rfl .empty
    [.push (.small (.num 1))] onTrue onFalse [] true hthn hels { stack := [[1]] } [1] [] rfl rfl
    (by decide) () hops
  exact ⟨rfl, hthn, hels, hskip, htaken rfl hskip, hend⟩

end SpendScript
