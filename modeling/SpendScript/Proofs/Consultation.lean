import SpendScript.Proofs.Dispatch
import SpendScript.Proofs.Neutral
/-!
# When extensions are consulted

An extension is asked about a chunk, and handed it if it claims it. Neither can be seen from how a
script ends, so extensions are wrapped here: each call to one is written into a journal, and beside
the journal the wrapped extension does what it did. What holds of every entry holds of every call.

What this file fixes:

* `Consultation`, `Interpreter.journaling` -- a call to an extension, and the interpreter with every
  call written down. `eval_journaling` says that nothing else changes, and what is written down.
* `Interpreter.Due`, `Interpreter.due_of_mem_consultedAlong` -- every call is about a chunk of the
  script that was reached in a branch that is taken, and was admitted.
* `Interpreter.consultedAt_of_claimed`, `Interpreter.consultedAt_of_unclaimed` -- the calls about
  one chunk, in order.
* `Interpreter.extensions_confined` -- all of it, with the limit on the stacks after each chunk and
  the extension that does nothing.
-/

namespace SpendScript

variable {μ α β : Type}

/-! ## 1. Journals -/

/-- The two calls to an extension about a chunk. -/
inductive Hook where
  | asked (answer : Bool)
  | handed (s : State)

/-- A call to an extension, which stands behind so many others. -/
structure Consultation where
  place : Nat
  chunk : Chunk
  flags : Flags
  hook : Hook

/-- A memory, and the calls made so far. -/
abbrev Journaled (μ : Type) := μ × List Consultation

namespace Session

/-- How a session ended, with a journal beside the memory that it left. -/
def withJournal (journal : List Consultation) :
    EStateM.Result Failure μ α → EStateM.Result Failure (Journaled μ) α
  | .ok a m => .ok a (m, journal)
  | .error e m => .error e (m, journal)

/-- A session as it is, and calls that it makes written down. -/
def noted (x : Session μ α) (calls : μ → List Consultation) : Session (Journaled μ) α := fun m =>
  withJournal (m.2 ++ calls m.1) (x m.1)

theorem noted_apply (x : Session μ α) (calls : μ → List Consultation) (m : μ)
    (journal : List Consultation) :
    x.noted calls (m, journal) = withJournal (journal ++ calls m) (x m) := rfl

/-- What makes no call leaves the journal as it is. -/
theorem noted_lift (x : Except Failure α) :
    (lift x : Session μ α).noted (fun _ => []) = lift x := by
  funext ⟨m, journal⟩
  rw [noted_apply, List.append_nil]
  cases x <;> rfl

/-- The calls of what follows the result of a session. A failure is followed by none. -/
def callsAfter (x : Session μ α) (more : α → μ → List Consultation) (m : μ) : List Consultation :=
  match x m with
  | .ok a left => more a left
  | .error _ _ => []

/-- **The calls of a sequence** are those of the first piece, then those of what follows its
result. -/
theorem noted_bind (x : Session μ α) (f : α → Session μ β) (calls : μ → List Consultation)
    (more : α → μ → List Consultation) :
    (x.noted calls >>= fun a => (f a).noted (more a))
      = (x >>= f).noted fun m => calls m ++ x.callsAfter more m := by
  funext ⟨m, journal⟩
  have hpiece := noted_apply x calls m journal
  rw [noted_apply]
  unfold callsAfter
  cases hx : x m with
  | ok a left =>
    rw [hx] at hpiece
    rw [EStateM.bind_ok hpiece, EStateM.bind_ok hx, noted_apply, List.append_assoc]
  | error e left =>
    rw [hx] at hpiece
    rw [EStateM.bind_error hpiece, EStateM.bind_error hx, List.append_nil]
    rfl

/-- A piece that makes no call adds none. -/
theorem noted_bind_lift (x : Session μ α) (f : α → Except Failure β)
    (calls : μ → List Consultation) :
    (x.noted calls >>= fun a => lift (f a)) = (x >>= fun a => lift (f a)).noted calls := by
  have hquiet := noted_bind x (fun a => lift (f a)) calls fun _ _ => []
  simp only [noted_lift] at hquiet
  rw [hquiet]
  congr 1
  funext m
  unfold callsAfter
  cases x m <;> exact List.append_nil _

theorem outcome_noted (x : Session μ α) (calls : μ → List Consultation) (m : Journaled μ) :
    (x.noted calls).outcome m = x.outcome m.1 := by
  unfold outcome noted
  cases x m.1 <;> rfl

theorem memory_noted (x : Session μ α) (calls : μ → List Consultation) (m : Journaled μ) :
    (x.noted calls).memory m = (x.memory m.1, m.2 ++ calls m.1) := by
  unfold memory noted
  cases x m.1 <;> rfl

end Session

/-- Questions to the checker are no calls to extensions. -/
theorem Run.noted_observed (observe : Query → μ → μ) (x : Run α) :
    (x.observed observe).noted (fun _ => []) = x.observed fun q m => (observe q m.1, m.2) := by
  have hfold : ∀ (asked : List Query) (m : μ) (journal : List Consultation),
      asked.foldl (fun m q => (observe q m.1, m.2)) (m, journal)
        = (asked.foldl (fun m q => observe q m) m, journal) := by
    intro asked
    induction asked with
    | nil => exact fun _ _ => rfl
    | cons q asked ih => exact fun m journal => ih (observe q m) journal
  funext ⟨m, journal⟩
  rw [Session.noted_apply, List.append_nil]
  unfold observed
  rw [hfold]
  cases x.result <;> rfl

/-- The extension with every call about a chunk written down. These are the only calls that the
evaluation of a script makes. The evaluation that it is given stays the one of the interpreter: what
it evaluates with it is a run of its own, with calls of its own. -/
def Extension.journaling (inner : Evaluator μ) (place : Nat) (ext : Extension μ) :
    Extension (Journaled μ) where
  extraFlags := ext.extraFlags
  claims := fun chunk flags m =>
    let (answer, left) := ext.claims chunk flags m.1
    (answer, left, m.2 ++ [⟨place, chunk, flags, .asked answer⟩])
  handleOpcode := fun _ chunk flags s =>
    (ext.handleOpcode inner chunk flags s).noted fun _ => [⟨place, chunk, flags, .handed s⟩]

namespace Interpreter

/-- Extensions with every call written down, the first of them behind so many others. -/
def journalingFrom (inner : Evaluator μ) (place : Nat) (exts : List (Extension μ)) :
    List (Extension (Journaled μ)) :=
  (exts.zipIdx place).map fun (ext, place) => ext.journaling inner place

/-- The interpreter with every call to an extension written down. -/
def journaling (i : Interpreter μ) : Interpreter (Journaled μ) where
  baseFlags := i.baseFlags
  checker := i.checker
  limits := i.limits
  hashes := i.hashes
  reader := i.reader
  extensions := journalingFrom i.inner 0 i.extensions
  observe := fun q m => (i.observe q m.1, m.2)

/-! ## 2. The calls of a run -/

/-- The calls that a chunk causes that is offered to extensions: each is asked until one claims it,
and that one is handed it. -/
def consultations (chunk : Chunk) (flags : Flags) (s : State) :
    (place : Nat) → List (Extension μ) → μ → List Consultation
  | _, [], _ => []
  | place, ext :: rest, m =>
    match ext.claims chunk flags m with
    | (true, _) => [⟨place, chunk, flags, .asked true⟩, ⟨place, chunk, flags, .handed s⟩]
    | (false, m) =>
      ⟨place, chunk, flags, .asked false⟩ :: consultations chunk flags s (place + 1) rest m

variable {i : Interpreter μ}

/-- The calls that one chunk of a script causes. -/
def consultedAt (i : Interpreter μ) (c : Context) (chunk : Chunk) (s : State) (m : μ) :
    List Consultation :=
  match accept c.limits chunk s with
  | .ok s => if s.isActive then consultations chunk c.flags s 0 i.extensions m else []
  | .error _ => []

/-- The calls that the chunks of a script cause from a position on. -/
def consultedAlong (i : Interpreter μ) (c : Context) :
    (position : Nat) → Program → State → μ → List Consultation
  | _, [], _, _ => []
  | position, chunk :: rest, s, m =>
    i.consultedAt c chunk s m ++
      (i.step c position chunk s).callsAfter (i.consultedAlong c (position + 1) rest) m

/-- The calls about a chunk that is offered, by induction on the extensions. -/
theorem offer_journalingFrom (given : Evaluator (Journaled μ)) (inner : Evaluator μ) (chunk : Chunk)
    (flags : Flags) (s : State) (other : Session μ State) (place : Nat)
    (exts : List (Extension μ)) :
    offer given chunk flags s (other.noted fun _ => []) (journalingFrom inner place exts)
      = (offer inner chunk flags s other exts).noted (consultations chunk flags s place exts) := by
  induction exts generalizing place with
  | nil => rfl
  | cons ext rest ih =>
    funext ⟨m, journal⟩
    show offer given chunk flags s _
      (ext.journaling inner place :: journalingFrom inner (place + 1) rest) _ = _
    rw [Session.noted_apply]
    cases hclaims : ext.claims chunk flags m with
    | mk answer left =>
      have hasked : (ext.journaling inner place).claims chunk flags (m, journal)
          = (answer, left, journal ++ [⟨place, chunk, flags, .asked answer⟩]) := by
        exact congrArg (fun (found : Bool × μ) => (found.1, found.2,
          journal ++ [⟨place, chunk, flags, .asked found.1⟩])) hclaims
      unfold consultations
      rw [hclaims]
      cases answer with
      | true =>
        rw [offer_of_claims hasked, offer_of_claims hclaims]
        show Session.withJournal (journal ++ [_] ++ [_]) _ = _
        rw [List.append_assoc]
        rfl
      | false =>
        rw [offer_of_declines hasked, offer_of_declines hclaims, ih, Session.noted_apply,
          List.append_assoc]
        rfl

theorem dispatch_journaling (c : Context) (position : Nat) (chunk : Chunk) (s : State) :
    i.journaling.dispatch c position chunk s = (i.dispatch c position chunk s).noted fun m =>
      if s.isActive then consultations chunk c.flags s 0 i.extensions m else [] := by
  by_cases hactive : s.isActive = true
  · have hother : i.journaling.perform (Execute.chunk c position s chunk)
        = (i.perform (Execute.chunk c position s chunk)).noted fun _ => [] :=
      (Run.noted_observed i.observe _).symm
    rw [dispatch_of_active hactive, dispatch_of_active hactive, hother]
    simp only [if_pos hactive]
    exact offer_journalingFrom _ i.inner chunk c.flags s _ 0 i.extensions
  · unfold dispatch
    simp only [if_neg hactive]
    cases chunk with
    | control op => exact (Session.noted_lift (Execute.control op s)).symm
    | push | operation | disabled | bad => exact (Session.noted_lift (.ok s)).symm

theorem step_journaling (c : Context) (position : Nat) (chunk : Chunk) (s : State) :
    i.journaling.step c position chunk s
      = (i.step c position chunk s).noted (i.consultedAt c chunk s) := by
  unfold consultedAt
  cases haccept : accept c.limits chunk s with
  | error e =>
    rw [step_of_accept_error haccept, step_of_accept_error haccept]
    exact (Session.noted_lift _).symm
  | ok accepted =>
    obtain ⟨hadmitted, rfl⟩ := accept_eq_ok_iff_admitted.mp haccept
    rw [step_of_admitted hadmitted, step_of_admitted hadmitted, dispatch_journaling,
      Session.noted_bind_lift]

theorem steps_journaling (c : Context) (position : Nat) (p : Program) (s : State) :
    i.journaling.steps c position p s
      = (i.steps c position p s).noted (i.consultedAlong c position p s) := by
  induction p generalizing position s with
  | nil => exact (Session.noted_lift (.ok s)).symm
  | cons chunk rest ih =>
    have hrest : i.journaling.steps c (position + 1) rest = fun s =>
        (i.steps c (position + 1) rest s).noted (i.consultedAlong c (position + 1) rest s) :=
      funext (ih (position + 1))
    show (i.journaling.step c position chunk s >>= i.journaling.steps c (position + 1) rest) = _
    rw [step_journaling, hrest, Session.noted_bind]
    rfl

/-- **A script is evaluated as without the journal**, and the journal holds the calls that its
chunks caused. -/
theorem eval_journaling (stack : Stack Bytes) (script : Program) (flags : Flags) :
    i.journaling.eval stack script flags = (i.eval stack script flags).noted fun m =>
      match checkScriptSize i.limits script with
      | .ok _ => i.consultedAlong (i.context script flags) 0 script (.initial stack) m
      | .error _ => [] := by
  show (Session.lift (checkScriptSize i.limits script) >>= fun _ =>
    i.journaling.steps (i.context script flags) 0 script (.initial stack) >>= fun s =>
      Session.lift (finish s)) = _
  unfold eval
  cases checkScriptSize i.limits script with
  | error e => exact (Session.noted_lift (.error e : Except Failure (Stack Bytes))).symm
  | ok _ =>
    rw [steps_journaling, Session.noted_bind_lift]
    rfl

/-! ## 3. When a call is due -/

theorem of_mem_consultations {chunk : Chunk} {flags : Flags} {s : State} {place : Nat}
    {exts : List (Extension μ)} {m : μ} {call : Consultation}
    (h : call ∈ consultations chunk flags s place exts m) :
    call.chunk = chunk ∧ call.flags = flags ∧ ∀ s', call.hook = .handed s' → s' = s := by
  induction exts generalizing place m with
  | nil => cases h
  | cons ext rest ih =>
    unfold consultations at h
    split at h
    · rcases List.mem_cons.mp h with rfl | h
      · exact ⟨rfl, rfl, nofun⟩
      · obtain rfl := List.mem_singleton.mp h
        exact ⟨rfl, rfl, fun s' hs' => by cases hs'; rfl⟩
    · rcases List.mem_cons.mp h with rfl | h
      · exact ⟨rfl, rfl, nofun⟩
      · exact ih h

/-- A chunk that causes a call was admitted, in a branch that is taken. -/
theorem of_mem_consultedAt {c : Context} {chunk : Chunk} {s : State} {m : μ} {call : Consultation}
    (h : call ∈ i.consultedAt c chunk s m) :
    s.isActive ∧ Admitted c.limits chunk s ∧ call.chunk = chunk ∧ call.flags = c.flags ∧
      ∀ s', call.hook = .handed s' → s' = s.counted chunk := by
  unfold consultedAt at h
  cases haccept : accept c.limits chunk s with
  | error e =>
    rw [haccept] at h
    cases h
  | ok accepted =>
    obtain ⟨hadmitted, rfl⟩ := accept_eq_ok_iff_admitted.mp haccept
    rw [haccept] at h
    dsimp only at h
    split at h
    · next hactive => exact ⟨hactive, hadmitted, of_mem_consultations h⟩
    · cases h

/-- **Every call of a run was caused by one of its chunks**, on the machine that the chunks before
it left, by induction on the script. -/
theorem exists_of_mem_consultedAlong {c : Context} {position : Nat} {p : Program} {s : State}
    {m : μ} {call : Consultation} (h : call ∈ i.consultedAlong c position p s m) :
    ∃ n chunk s' left, p[n]? = some chunk ∧
      i.steps c position (p.take n) s m = .ok s' left ∧ call ∈ i.consultedAt c chunk s' left := by
  induction p generalizing position s m with
  | nil => cases h
  | cons chunk rest ih =>
    unfold consultedAlong at h
    rcases List.mem_append.mp h with h | h
    · exact ⟨0, chunk, s, m, rfl, rfl, h⟩
    · unfold Session.callsAfter at h
      cases hstep : i.step c position chunk s m with
      | error e left =>
        rw [hstep] at h
        cases h
      | ok between left =>
        rw [hstep] at h
        obtain ⟨n, found, s', left', hfound, hsteps, hcall⟩ := ih h
        refine ⟨n + 1, found, s', left', hfound, ?_, hcall⟩
        rw [List.take_succ_cons]
        exact (EStateM.bind_ok hstep).trans hsteps

/-- **A call is due** if it is about a chunk of the script that is reached, with every open
condition true, and that passes the checks; and the machine that is handed over is the one that is
reached, with the chunk counted. -/
def Due (i : Interpreter μ) (stack : Stack Bytes) (script : Program) (flags : Flags) (m : μ)
    (call : Consultation) : Prop :=
  ∃ n s left, script[n]? = some call.chunk ∧ call.flags = flags ∧
    i.after (i.context script flags) stack n m = .ok s left ∧
    (∀ condition ∈ s.conditions, condition = true) ∧ Admitted i.limits call.chunk s ∧
    ∀ s', call.hook = .handed s' → s' = s.counted call.chunk

theorem due_of_mem_consultedAlong {stack : Stack Bytes} {script : Program} {flags : Flags} {m : μ}
    {call : Consultation}
    (h : call ∈ i.consultedAlong (i.context script flags) 0 script (.initial stack) m) :
    i.Due stack script flags m call := by
  obtain ⟨n, chunk, s, left, hchunk, hsteps, hcall⟩ := exists_of_mem_consultedAlong h
  obtain ⟨hactive, hadmitted, rfl, hflags, hhanded⟩ := of_mem_consultedAt hcall
  exact ⟨n, s, left, hchunk, hflags, hsteps, List.all_eq_true.mp hactive, hadmitted, hhanded⟩

/-! ## 4. In order -/

/-- So many extensions, one behind the other, are asked and decline. -/
def refusals (chunk : Chunk) (flags : Flags) (place count : Nat) : List Consultation :=
  (List.range' place count).map fun place => ⟨place, chunk, flags, .asked false⟩

section Order

variable {c : Context} {chunk : Chunk} {flags : Flags} {s : State} {ext : Extension μ}
  {before after : List (Extension μ)} {m m' m'' : μ}

/-- The calls about a chunk that some extensions decline. -/
theorem consultations_of_declined (h : Declined chunk flags before m m') (s : State) (place : Nat)
    (rest : List (Extension μ)) :
    consultations chunk flags s place (before ++ rest) m =
      refusals chunk flags place before.length ++
      consultations chunk flags s (place + before.length) rest m' := by
  induction h generalizing place with
  | nil => rfl
  | @cons ext exts _ _ _ hdeclines _ ih =>
    have hlength : place + (ext :: exts).length = place + 1 + exts.length := by
      rw [List.length_cons]
      omega
    rw [List.cons_append, consultations, hdeclines, hlength]
    exact congrArg (_ :: ·) (ih (place + 1))

theorem consultedAt_of_admitted (hactive : s.isActive) (hadmitted : Admitted c.limits chunk s) :
    i.consultedAt c chunk s m
      = consultations chunk c.flags (s.counted chunk) 0 i.extensions m := by
  unfold consultedAt
  rw [accept_eq_ok_iff_admitted.mpr ⟨hadmitted, rfl⟩]
  exact if_pos hactive

/-- **The extensions up to the first that claims a chunk are called**, in order, and no others. -/
theorem consultedAt_of_claimed (hactive : s.isActive) (hadmitted : Admitted c.limits chunk s)
    (hexts : i.extensions = before ++ ext :: after) (hbefore : Declined chunk c.flags before m m')
    (hclaims : ext.claims chunk c.flags m' = (true, m'')) :
    i.consultedAt c chunk s m = refusals chunk c.flags 0 before.length ++
      [⟨before.length, chunk, c.flags, .asked true⟩,
        ⟨before.length, chunk, c.flags, .handed (s.counted chunk)⟩] := by
  rw [consultedAt_of_admitted hactive hadmitted, hexts, consultations_of_declined hbefore,
    consultations, hclaims, Nat.zero_add]

/-- About a chunk that none claims all are asked, and none is handed it. -/
theorem consultedAt_of_unclaimed (hactive : s.isActive) (hadmitted : Admitted c.limits chunk s)
    (hdeclined : Declined chunk c.flags i.extensions m m') :
    i.consultedAt c chunk s m = refusals chunk c.flags 0 i.extensions.length := by
  have hall := consultations_of_declined hdeclined (s.counted chunk) 0 []
  rw [List.append_nil] at hall
  rw [consultedAt_of_admitted hactive hadmitted, hall]
  exact List.append_nil _

end Order

/-- **Extensions are consulted in order, where they are due, and nowhere else.** Writing every call
down changes nothing else about a script, and every call that is written down is due. A chunk that
is admitted in a branch that is taken is claimed by a first extension or by none. In the one case
that extension executes it, after those before it were asked, and nobody else does; in the other the
chunk does what it says, after all were asked. Either way the stacks have to be within their limit
afterwards. One more extension that does nothing, wherever it stands, changes no script and no
verification, also where extensions use the interpreter themselves. -/
theorem extensions_confined (i : Interpreter μ) :
    (∀ (stack : Stack Bytes) (script : Program) (flags : Flags) (m : μ),
      (i.journaling.eval stack script flags).outcome (m, [])
        = (i.eval stack script flags).outcome m ∧
      ∃ calls, (i.journaling.eval stack script flags).memory (m, [])
          = ((i.eval stack script flags).memory m, calls) ∧
        ∀ call ∈ calls, i.Due stack script flags m call) ∧
    (∀ (chunk : Chunk) (flags : Flags) (m : μ),
      (∃ m', Declined chunk flags i.extensions m m') ∨
      ∃ before ext after m' m'', i.extensions = before ++ ext :: after ∧
        Declined chunk flags before m m' ∧ ext.claims chunk flags m' = (true, m'')) ∧
    (∀ (c : Context) (position : Nat) (chunk : Chunk) (s : State) (m : μ), s.isActive →
      Admitted c.limits chunk s →
      (∀ before ext after m' m'', i.extensions = before ++ ext :: after →
        Declined chunk c.flags before m m' → ext.claims chunk c.flags m' = (true, m'') →
        i.step c position chunk s m = (ext.handleOpcode i.inner chunk c.flags (s.counted chunk) >>=
          fun s' => Session.lift (checkDepth c.limits s')) m'' ∧
        ((i.journaling.step c position chunk s).memory (m, [])).2 =
          refusals chunk c.flags 0 before.length ++
            [⟨before.length, chunk, c.flags, .asked true⟩,
              ⟨before.length, chunk, c.flags, .handed (s.counted chunk)⟩]) ∧
      ∀ m', Declined chunk c.flags i.extensions m m' →
        i.step c position chunk s m =
          (i.perform (Execute.chunk c position (s.counted chunk) chunk) >>=
            fun s' => Session.lift (checkDepth c.limits s')) m' ∧
        ((i.journaling.step c position chunk s).memory (m, [])).2 =
          refusals chunk c.flags 0 i.extensions.length) ∧
    (∀ (stack : Stack Bytes) (script : Program) (flags : Flags) (n : Nat) (m left : μ) (s : State),
      n < script.length → i.after (i.context script flags) stack (n + 1) m = .ok s left →
      s.depth ≤ i.limits.maxStackSize) ∧
    (∀ place : Nat, (i.withNeutral place).eval = i.eval ∧ (i.withNeutral place).verify = i.verify) ∧
    (∀ (extensions : Interface μ → List (Extension μ)) (innermost : Interface μ)
      (place depth : Nat),
      (i.atDepth (fun seen => (extensions seen).insertIdx place .neutral) innermost depth).interface
        = (i.atDepth extensions innermost depth).interface) := by
  refine ⟨?due, fun chunk flags m => declined_or_claimed chunk flags i.extensions m, ?order,
    fun _ _ _ _ _ _ _ hn h => depth_le_of_after hn h,
    fun place => ⟨eval_withNeutral i place, verify_withNeutral i place⟩,
    fun extensions innermost place depth => interface_atDepth i extensions innermost place depth⟩
  case due =>
    intro stack script flags m
    rw [eval_journaling, Session.outcome_noted, Session.memory_noted]
    refine ⟨rfl, _, rfl, fun call hcall => ?_⟩
    dsimp only [List.nil_append] at hcall
    split at hcall
    · exact due_of_mem_consultedAlong hcall
    · cases hcall
  case order =>
    intro c position chunk s m hactive hadmitted
    have hcalls : ((i.journaling.step c position chunk s).memory (m, [])).2
        = i.consultedAt c chunk s m := by
      rw [step_journaling, Session.memory_noted]
      rfl
    rw [hcalls]
    refine ⟨fun _ _ _ _ _ hexts hbefore hclaims => ⟨?_, ?_⟩, fun _ hdeclined => ⟨?_, ?_⟩⟩
    · exact step_of_claimed hactive hadmitted hexts hbefore hclaims position
    · exact consultedAt_of_claimed hactive hadmitted hexts hbefore hclaims
    · exact step_of_unclaimed hactive hadmitted hdeclined position
    · exact consultedAt_of_unclaimed hactive hadmitted hdeclined

end Interpreter

namespace Claimed

/-- Executes the last of the opcodes that are kept for upgrades, which pushes a byte then. -/
def pusher : Extension Unit where
  claims := fun chunk _ m => (chunk == .operation .nop10, m)
  handleOpcode := fun _ _ _ s => pure { s with stack := [7] :: s.stack }

/-- The extension stands behind one that does nothing. -/
def interpreter : Interpreter Unit :=
  { baseFlags := .empty, checker := .rejecting, extensions := [.neutral, pusher] }

/-- The opcode twice, the second time in a branch that is skipped. -/
def script : Program :=
  [.operation .nop10, .push (.small (.num 0)), .control .opIf, .operation .nop10,
    .control .opEndIf]

end Claimed

open Claimed in
/-- The opcode is executed by the second extension, which pushes a byte. Both are asked about it,
about the push and about the opcode that opens the branch, and about nothing that is skipped; one is
handed a chunk, once. Another extension that does nothing, between the two, changes nothing. -/
theorem Interpreter.extensions_confined_skippedBranch :
    (State.initial []).isActive ∧ Admitted {} (.operation .nop10) (.initial []) ∧
    interpreter.step (interpreter.context script .empty) 0 (.operation .nop10) (.initial []) ()
      = .ok { State.initial [[7]] with opCount := 1 } () ∧
    interpreter.step (interpreter.context script .empty) 0 (.operation .nop) (.initial []) ()
      = .ok { State.initial [] with opCount := 1 } () ∧
    (∃ calls, (interpreter.journaling.eval [] script .empty).memory ((), []) = ((), calls) ∧
      calls.length = 7 ∧ ∀ call ∈ calls, interpreter.Due [] script .empty () call) ∧
    (interpreter.after (interpreter.context script .empty) [] 1 ()
        = .ok { State.initial [[7]] with opCount := 1 } () ∧
      State.depth { State.initial [[7]] with opCount := 1 } ≤ 1000) ∧
    (interpreter.withNeutral 1).verify = interpreter.verify := by
  obtain ⟨hdue, _, horder, hlimit, hneutral, _⟩ := Interpreter.extensions_confined interpreter
  let c := interpreter.context script .empty
  have hadmitted : ∀ op, Admitted {} (.operation op) (.initial []) := fun op =>
    ⟨nofun, nofun, fun _ => show 1 ≤ 201 by decide, nofun, nofun, nofun⟩
  have hneutralDeclines : Declined (.operation .nop10) .empty [.neutral] () () := .cons rfl .nil
  have hallDecline : Declined (.operation .nop) .empty interpreter.extensions () () :=
    .cons rfl (.cons rfl .nil)
  have hclaimed := ((horder c 0 (.operation .nop10) (.initial []) () rfl (hadmitted _)).1
    [.neutral] pusher [] () () rfl hneutralDeclines rfl).1
  have hunclaimed := ((horder c 0 (.operation .nop) (.initial []) () rfl (hadmitted _)).2
    () hallDecline).1
  obtain ⟨_, calls, hcalls, hall⟩ := hdue [] script .empty ()
  refine ⟨rfl, hadmitted _, hclaimed, hunclaimed, ⟨calls, hcalls, ?_, hall⟩,
    ⟨rfl, hlimit [] script .empty 0 () () _ (by decide) rfl⟩, (hneutral 1).2⟩
  have hlength : ((interpreter.journaling.eval [] script .empty).memory ((), [])).2.length = 7 := by
    rfl
  rw [hcalls] at hlength
  exact hlength

end SpendScript
