import SpendScript.Proofs.BuiltIn
/-!
# A branch more around a part of a script

A part of a script that closes every branch it opens does the same inside one more branch that is
taken: the condition of that branch stays where it is, below those of the part. Only the limit on
operations can tell the difference, because more operations were counted before the part.

What this file fixes:

* `Program.nesting?`, `Program.Balanced` -- how many branches are open after a part of a script.
* `Run.WithinOps` -- two runs that are the same unless the first exceeds the limit on operations.
* `State.nested` -- the machine with a condition more that holds, and operations more.
* `BuiltIn.step_nested`, `BuiltIn.steps_nested` -- one chunk, and a part of a script, in the two
  machines.
-/

namespace SpendScript

variable {α β γ : Type}

/-! ## 1. Parts of scripts that keep to their own branches -/

/-- How many branches are open after a chunk, and none if it switches or closes one while no branch
is open. -/
def Chunk.nesting? (depth : Nat) : Chunk → Option Nat
  | .control .opIf | .control .opNotIf => some (depth + 1)
  | .control .opElse => if depth = 0 then none else some depth
  | .control .opEndIf => if depth = 0 then none else some (depth - 1)
  | _ => some depth

/-- How many branches are open after a part of a script. -/
def Program.nesting? : (depth : Nat) → Program → Option Nat
  | depth, [] => some depth
  | depth, chunk :: rest =>
    match chunk.nesting? depth with
    | some depth => nesting? depth rest
    | none => none

/-- Every branch that is opened is closed, and none is switched or closed that was not opened. -/
def Program.Balanced (p : Program) : Prop := p.nesting? 0 = some 0

instance (p : Program) : Decidable p.Balanced :=
  inferInstanceAs (Decidable (p.nesting? 0 = some 0))

theorem Program.nesting?_cons {depth depth' : Nat} {chunk : Chunk} {rest : Program}
    (h : Program.nesting? depth (chunk :: rest) = some depth') :
    ∃ between, chunk.nesting? depth = some between ∧ rest.nesting? between = some depth' := by
  unfold nesting? at h
  cases hc : chunk.nesting? depth with
  | none => rw [hc] at h; cases h
  | some between => rw [hc] at h; exact ⟨between, rfl, h⟩

/-! ## 2. Runs up to the limit on operations -/

/-- The failure of an operation more than there may be. -/
def tooManyOps : Failure := .plain .opCount

/-- The first run is the second one, unless it exceeds the limit on operations. -/
def Run.WithinOps (x y : Run α) : Prop := x.result = .error tooManyOps ∨ x = y

namespace Run.WithinOps

protected theorem refl (x : Run α) : WithinOps x x := .inr rfl

theorem trans {x y z : Run α} (hxy : WithinOps x y) (hyz : WithinOps y z) : WithinOps x z := by
  rcases hxy with hx | rfl
  · exact .inl hx
  · exact hyz

/-- A run whose first piece exceeds the limit exceeds it. -/
theorem bind_left {x : Run α} (h : x.result = .error tooManyOps) (f : α → Run β) :
    (x >>= f).result = .error tooManyOps := by
  rw [Run.result_bind, h]
  rfl

/-- **Piece by piece**: what follows is compared on the results of the second run. -/
theorem bind {x y : Run α} {f g : α → Run β} (h : WithinOps x y)
    (hf : ∀ a, y.result = .ok a → WithinOps (f a) (g a)) : WithinOps (x >>= f) (y >>= g) := by
  rcases h with hx | rfl
  · exact .inl (bind_left hx f)
  · rcases hx : x.result with e | a
    · rw [Run.bind_error hx, Run.bind_error hx]
      exact .refl _
    · rcases hf a hx with hfa | hfa
      · left
        rw [Run.result_bind, hx]
        exact hfa
      · rw [Run.bind_ok hx, Run.bind_ok hx, hfa]
        exact .refl _

/-- A first piece that comes to a value is left out. -/
theorem pure_bind {x : Run α} {a : α} {F : α → Run β} {z : Run β} (h : WithinOps x (pure a))
    (hF : WithinOps (F a) z) : WithinOps (x >>= F) z :=
  trans (bind h fun b _ => .refl (F b)) (by rw [LawfulMonad.pure_bind]; exact hF)

/-- Piece by piece, where the first pieces differ by a change of results. -/
theorem map_bind {x : Run β} {y : Run α} {F : β → Run γ} {G : α → Run γ} {f : α → β}
    (h : WithinOps x (f <$> y)) (hF : ∀ a, y.result = .ok a → WithinOps (F (f a)) (G a)) :
    WithinOps (x >>= F) (y >>= G) := by
  refine trans (bind h fun b _ => .refl (F b)) ?_
  rw [bind_map_left]
  exact bind (.refl y) hF

end Run.WithinOps

/-! ## 3. The machine inside one more branch -/

namespace State

/-- A condition more that holds, under those of the branches that were opened since, and operations
more. -/
def nested (depth ops : Nat) (s : State) : State :=
  { s with conditions := s.conditions.insertIdx depth true, opCount := s.opCount + ops }

theorem allHold_insertIdx (depth : Nat) (conditions : Stack Bool) :
    allHold (conditions.insertIdx depth true) = allHold conditions := by
  induction conditions generalizing depth with
  | nil => cases depth <;> rfl
  | cons b rest ih =>
    cases depth with
    | zero => rfl
    | succ depth =>
      show (b && allHold (rest.insertIdx depth true)) = (b && allHold rest)
      rw [ih]

@[simp] theorem isActive_nested (depth ops : Nat) (s : State) :
    (s.nested depth ops).isActive = s.isActive := allHold_insertIdx depth s.conditions

@[simp] theorem stack_nested (depth ops : Nat) (s : State) :
    (s.nested depth ops).stack = s.stack := rfl

theorem onStack_nested (depth ops : Nat) (s : State) (op : StackOp Bytes Unit) :
    Run.ofExcept ((s.nested depth ops).onStack op)
      = State.nested depth ops <$> Run.ofExcept (s.onStack op) := by
  unfold onStack
  rw [stack_nested]
  cases op s.stack <;> rfl

end State

/-! ## 4. What opcodes do there -/

namespace Execute

variable {c : Context} {s : State} {depth ops : Nat}

theorem upgradable_nested : Run.ofExcept (upgradable c (s.nested depth ops))
    = State.nested depth ops <$> Run.ofExcept (upgradable c s) := by
  unfold upgradable
  split <;> rfl

theorem lockTimeOpcode_nested : lockTimeOpcode c (s.nested depth ops)
    = State.nested depth ops <$> lockTimeOpcode c s := by
  unfold lockTimeOpcode
  split
  · rw [map_bind]
    rfl
  · exact upgradable_nested

theorem toAltStack_nested : Run.ofExcept (toAltStack (s.nested depth ops))
    = State.nested depth ops <$> Run.ofExcept (toAltStack s) := by
  obtain ⟨stack, alt, opCount, conditions, beginCode⟩ := s
  cases stack <;> rfl

theorem fromAltStack_nested : Run.ofExcept (fromAltStack (s.nested depth ops))
    = State.nested depth ops <$> Run.ofExcept (fromAltStack s) := by
  obtain ⟨stack, alt, opCount, conditions, beginCode⟩ := s
  cases alt <;> rfl

theorem checkSig_nested (verifying : Option FailureKind) :
    checkSig c verifying (s.nested depth ops)
      = State.nested depth ops <$> checkSig c verifying s := by
  obtain ⟨stack, alt, opCount, conditions, beginCode⟩ := s
  rcases stack with _ | ⟨key, _ | ⟨sig, below⟩⟩
  · rfl
  · rfl
  · unfold checkSig State.nested
    simp only [map_bind, map_pure]
    rfl

/-- The keys to be checked are counted as operations, so the limit is looked at here. -/
theorem readKeyCount_nested :
    Run.WithinOps (.ofExcept (readKeyCount c (s.nested depth ops)))
      ((fun found => (found.1, State.nested depth ops found.2)) <$>
        Run.ofExcept (readKeyCount c s)) := by
  unfold readKeyCount
  show Run.WithinOps (.ofExcept (peek (Stack.checkLen 1) s.stack >>= fun _ =>
    elementAt s.stack 1 >>= fun top => _)) _
  rcases peek (Stack.checkLen 1) s.stack with e | _
  · exact .refl _
  rcases elementAt s.stack 1 with e | top
  · exact .refl _
  show Run.WithinOps (.ofExcept (readCount c .pubKeyCount _ top >>= fun keyCount => _))
    (_ <$> Run.ofExcept (readCount c .pubKeyCount _ top >>= fun keyCount => _))
  rcases readCount c .pubKeyCount c.limits.maxPubKeyCount.toNat top with e | keyCount
  · exact .refl _
  -- the end of it, with the two counts
  let count (opCount : Nat) (found : State) : Except Failure (Nat × State) :=
    if c.limits.maxOpCount < opCount then .error tooManyOps else .ok (keyCount, found)
  show Run.WithinOps (.ofExcept (count (s.opCount + ops + keyCount)
      { s.nested depth ops with opCount := s.opCount + ops + keyCount }))
    (_ <$> Run.ofExcept (count (s.opCount + keyCount) { s with opCount := s.opCount + keyCount }))
  dsimp only [count]
  by_cases hmore : c.limits.maxOpCount < s.opCount + ops + keyCount
  · rw [if_pos hmore]
    exact .inl rfl
  · have hless : ¬ c.limits.maxOpCount < s.opCount + keyCount := by omega
    have hsum : s.opCount + ops + keyCount = s.opCount + keyCount + ops := by omega
    rw [if_neg hmore, if_neg hless, hsum]
    exact .refl _

theorem checkMultisig_nested (verifying : Option FailureKind) :
    Run.WithinOps (checkMultisig c verifying (s.nested depth ops))
      (State.nested depth ops <$> checkMultisig c verifying s) := by
  unfold checkMultisig
  rw [map_bind]
  refine .map_bind readKeyCount_nested fun found _ => .inr ?_
  simp only [map_bind, map_pure]
  rfl

/-- **An operation does the same**, by its kind: it works on the stack, it moves an element between
the stacks, it may be discouraged, or it is one of those with a lemma of their own. -/
theorem operation_nested (position : Nat) (op : Operation) :
    Run.WithinOps (operation c position (s.nested depth ops) op)
      (State.nested depth ops <$> operation c position s op) := by
  cases op
  case checkMultisig => exact checkMultisig_nested none
  case checkMultisigVerify => exact checkMultisig_nested (some .checkMultisigVerify)
  case checkSig => exact .inr (checkSig_nested none)
  case checkSigVerify => exact .inr (checkSig_nested (some .checkSigVerify))
  case checkLockTimeVerify => exact .inr lockTimeOpcode_nested
  case toAltStack => exact .inr toAltStack_nested
  case fromAltStack => exact .inr fromAltStack_nested
  case nop | ret | codeSeparator => exact .inr rfl
  case nop1 | nop3 | nop4 | nop5 | nop6 | nop7 | nop8 | nop9 | nop10 =>
    exact .inr upgradable_nested
  all_goals exact .inr (State.onStack_nested depth ops s _)

/-- **Opening, switching and closing branches** leaves the condition below them alone, as long as
the branches that are switched and closed are those above it. -/
theorem control_nested {depth' : Nat} {op : Control}
    (h : (Chunk.control op).nesting? depth = some depth') :
    Run.ofExcept (control op (s.nested depth ops))
      = State.nested depth' ops <$> Run.ofExcept (control op s) := by
  have hopen : ∀ expected, Run.ofExcept (openBranch expected (s.nested depth ops))
      = State.nested (depth + 1) ops <$> Run.ofExcept (openBranch expected s) := by
    intro expected
    unfold openBranch
    rw [State.isActive_nested]
    split
    · rw [State.stack_nested]
      cases s.stack <;> rfl
    · rfl
  obtain ⟨stack, alt, opCount, conditions, beginCode⟩ := s
  cases op with
  | opIf => cases h; exact hopen true
  | opNotIf => cases h; exact hopen false
  | opElse =>
    cases depth with
    | zero => cases h
    | succ depth => cases h; cases conditions <;> rfl
  | opEndIf =>
    cases depth with
    | zero => cases h
    | succ depth => cases h; cases conditions <;> rfl

theorem push_nested (p : Push) : Run.ofExcept (push c p (s.nested depth ops))
    = State.nested depth ops <$> Run.ofExcept (push c p s) := by
  unfold push
  split <;> rfl

theorem chunk_nested {depth' : Nat} {chunk : Chunk} (h : chunk.nesting? depth = some depth')
    (position : Nat) :
    Run.WithinOps (Execute.chunk c position (s.nested depth ops) chunk)
      (State.nested depth' ops <$> Execute.chunk c position s chunk) := by
  cases chunk with
  | push p => cases h; exact .inr (push_nested p)
  | control op => exact .inr (control_nested h)
  | operation op => cases h; exact operation_nested position op
  | disabled d => exact .inr rfl
  | bad b => exact .inr rfl

end Execute

/-! ## 5. Parts of scripts -/

namespace BuiltIn

variable {c : Context} {s : State} {depth depth' ops : Nat}

theorem accept_nested (limits : Limits) (chunk : Chunk) :
    Run.WithinOps (.ofExcept (Interpreter.accept limits chunk (s.nested depth ops)))
      (State.nested depth ops <$> Run.ofExcept (Interpreter.accept limits chunk s)) := by
  unfold Interpreter.accept
  cases Interpreter.badPush? limits chunk with
  | some e => exact .refl _
  | none =>
    dsimp only
    by_cases hcounted : Interpreter.isCounted chunk
    · by_cases hmore : limits.maxOpCount < s.opCount + ops + 1
      · left
        simp only [hcounted, if_true, true_and, State.nested]
        rw [if_pos hmore]
        rfl
      · right
        have hless : ¬ limits.maxOpCount < s.opCount + 1 := by omega
        have hsum : s.opCount + ops + 1 = s.opCount + 1 + ops := by omega
        simp only [hcounted, if_true, true_and, State.nested]
        rw [if_neg hmore, if_neg hless, hsum]
        cases Interpreter.forbidden? chunk <;> rfl
    · right
      simp only [hcounted]
      cases Interpreter.forbidden? chunk <;> rfl

theorem dispatch_nested {chunk : Chunk} (h : chunk.nesting? depth = some depth')
    (position : Nat) :
    Run.WithinOps (dispatch c position chunk (s.nested depth ops))
      (State.nested depth' ops <$> dispatch c position chunk s) := by
  unfold dispatch
  rw [State.isActive_nested]
  split
  · exact Execute.chunk_nested h position
  · cases chunk with
    | control op => exact .inr (Execute.control_nested h)
    | push | operation | disabled | bad => cases h; exact .refl _

theorem checkDepth_nested (limits : Limits) :
    Run.ofExcept (Interpreter.checkDepth limits (s.nested depth ops))
      = State.nested depth ops <$> Run.ofExcept (Interpreter.checkDepth limits s) := by
  unfold Interpreter.checkDepth
  show Run.ofExcept (if limits.maxStackSize < s.depth then _ else _) = _
  split <;> rfl

/-- **One chunk** does the same inside one more branch. -/
theorem step_nested {chunk : Chunk} (h : chunk.nesting? depth = some depth') (position : Nat) :
    Run.WithinOps (step c position chunk (s.nested depth ops))
      (State.nested depth' ops <$> step c position chunk s) := by
  unfold step
  simp only [map_bind]
  refine .map_bind (accept_nested c.limits chunk) fun accepted _ => ?_
  refine .map_bind (dispatch_nested h position) fun done _ => ?_
  exact .inr (checkDepth_nested c.limits)

/-- **A part of a script** does the same inside one more branch, by induction on the part: after
each chunk the condition lies under those of the branches that are open then. -/
theorem steps_nested {p : Program} (h : p.nesting? depth = some depth') (position : Nat) :
    Run.WithinOps (steps c position p (s.nested depth ops))
      (State.nested depth' ops <$> steps c position p s) := by
  induction p generalizing position depth s with
  | nil => cases h; exact .refl _
  | cons chunk rest ih =>
    obtain ⟨between, hchunk, hrest⟩ := Program.nesting?_cons h
    rw [steps_cons, steps_cons, map_bind]
    exact .map_bind (step_nested hchunk position) fun s' _ => ih hrest (position + 1)

end BuiltIn

end SpendScript
