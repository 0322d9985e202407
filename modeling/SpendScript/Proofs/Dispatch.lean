import SpendScript.Proofs.Effect
import SpendScript.Proofs.Trace
/-!
# Who executes a chunk

A chunk that passes the checks in a branch that is taken is offered to the extensions, in order. The
first that claims it executes it; if none does, the chunk does what it says. The limit on the stacks
comes afterwards, and holds for either.

What this file fixes:

* `Interpreter.Admitted` -- the checks that a chunk passes before any extension hears of it;
  `Interpreter.accept_eq_ok_iff_admitted` says that these are the checks that are made.
* `Interpreter.Declined`, `Interpreter.offer` -- extensions that are asked in order and decline, and
  what becomes of a chunk that is offered to them.
* `Interpreter.step_of_claimed`, `Interpreter.step_of_unclaimed` -- one chunk of a script, where an
  extension claims it and where none does; `declined_or_claimed` says that there is no third case.
* `Interpreter.depth_le_of_after` -- the limit on the stacks along a script.
-/

namespace SpendScript

variable {μ : Type}

namespace Interpreter

/-! ## 1. The checks before -/

/-- **What a chunk has to pass** before it is executed, by whomever: a push says its length and is
not too long, there is room to count an operation, and the chunk is none of those that no script may
hold. -/
structure Admitted (limits : Limits) (chunk : Chunk) (s : State) : Prop where
  wellFormed : ∀ p, chunk = .push p → p.WellFormed
  size : ∀ p, chunk = .push p → p.value.length ≤ limits.maxPushSize
  count : isCounted chunk → s.opCount + 1 ≤ limits.maxOpCount
  enabled : ∀ d, chunk ≠ .disabled d
  allowed : chunk ≠ .bad .verIf ∧ chunk ≠ .bad .verNotIf

theorem accept_eq_ok_iff_admitted {limits : Limits} {chunk : Chunk} {s s' : State} :
    accept limits chunk s = .ok s' ↔ Admitted limits chunk s ∧ s' = s.counted chunk := by
  rw [accept_eq_ok_iff]
  constructor
  · rintro ⟨hpush, hforbidden, hcount, hs'⟩
    refine ⟨⟨?_, ?_, hcount, ?_, ?_, ?_⟩, hs'⟩
    · rintro p rfl
      exact (BuiltIn.badPush?_eq_none_iff.mp hpush).1
    · rintro p rfl
      exact (BuiltIn.badPush?_eq_none_iff.mp hpush).2
    · rintro d rfl
      cases hforbidden
    · rintro rfl
      cases hforbidden
    · rintro rfl
      cases hforbidden
  · rintro ⟨⟨hwell, hsize, hcount, henabled, hverIf, hverNotIf⟩, hs'⟩
    refine ⟨?_, ?_, hcount, hs'⟩
    · cases chunk with
      | push p => exact BuiltIn.badPush?_eq_none_iff.mpr ⟨hwell p rfl, hsize p rfl⟩
      | control | operation | disabled | bad => rfl
    · cases chunk with
      | push | control | operation => rfl
      | disabled d => exact absurd rfl (henabled d)
      | bad b =>
        cases b with
        | verIf => exact absurd rfl hverIf
        | verNotIf => exact absurd rfl hverNotIf
        | reserved | ver | reserved1 | reserved2 | unknown => rfl

/-! ## 2. Extensions in order -/

section Offer

variable {chunk : Chunk} {flags : Flags} {s : State} {ext : Extension μ}
  {before rest : List (Extension μ)} {m m' m'' : μ} {other : Session μ State}
  {inner : Evaluator μ}

/-- These extensions are asked one after the other, and decline. -/
inductive Declined (chunk : Chunk) (flags : Flags) : List (Extension μ) → (m m' : μ) → Prop
  | nil {m : μ} : Declined chunk flags [] m m
  | cons {ext : Extension μ} {rest : List (Extension μ)} {m m' m'' : μ}
      (h : ext.claims chunk flags m = (false, m')) (hrest : Declined chunk flags rest m' m'') :
      Declined chunk flags (ext :: rest) m m''

/-- What becomes of a chunk that is offered to extensions, and else is done otherwise. -/
def offer (inner : Evaluator μ) (chunk : Chunk) (flags : Flags) (s : State)
    (other : Session μ State) (exts : List (Extension μ)) : Session μ State := fun m =>
  match firstClaiming chunk flags exts m with
  | (some ext, m) => ext.handleOpcode inner chunk flags s m
  | (none, m) => other m

theorem offer_of_claims (h : ext.claims chunk flags m = (true, m')) :
    offer inner chunk flags s other (ext :: rest) m = ext.handleOpcode inner chunk flags s m' := by
  unfold offer firstClaiming
  rw [h]

theorem offer_of_declines (h : ext.claims chunk flags m = (false, m')) :
    offer inner chunk flags s other (ext :: rest) m = offer inner chunk flags s other rest m' := by
  unfold offer
  rw [firstClaiming, h]

/-- Extensions that decline leave the chunk to those after them. -/
theorem offer_of_declined (h : Declined chunk flags before m m') :
    offer inner chunk flags s other (before ++ rest) m
      = offer inner chunk flags s other rest m' := by
  induction h with
  | nil => rfl
  | cons hdeclines _ ih => exact (offer_of_declines hdeclines).trans ih

/-- In a branch that is taken a chunk is offered to the extensions, and else does what it says. -/
theorem dispatch_of_active {i : Interpreter μ} {c : Context} {position : Nat} (h : s.isActive) :
    i.dispatch c position chunk s =
      offer i.inner chunk c.flags s (i.perform (Execute.chunk c position s chunk))
        i.extensions := by
  unfold dispatch offer
  rw [if_pos h]
  funext m
  cases hfirst : firstClaiming chunk c.flags i.extensions m with
  | mk found left =>
    have hfound : Session.ofState (firstClaiming chunk c.flags i.extensions) m
        = .ok found left := by
      unfold Session.ofState
      rw [hfirst]
    rw [EStateM.bind_ok hfound]
    cases found <;> rfl

end Offer

/-- An admitted chunk is counted, dispatched, and leaves the stacks within their limit. -/
theorem step_of_admitted {i : Interpreter μ} {c : Context} {chunk : Chunk} {s : State}
    (h : Admitted c.limits chunk s) (position : Nat) :
    i.step c position chunk s = i.dispatch c position chunk (s.counted chunk) >>= fun s' =>
      Session.lift (checkDepth c.limits s') := by
  unfold step
  rw [accept_eq_ok_iff_admitted.mpr ⟨h, rfl⟩]
  rfl

theorem step_of_accept_error {i : Interpreter μ} {c : Context} {chunk : Chunk} {s : State}
    {e : Failure} (h : accept c.limits chunk s = .error e) (position : Nat) :
    i.step c position chunk s = Session.lift (.error e) := by
  unfold step
  rw [h]
  rfl

/-! ## 3. One chunk -/

section Step

variable {i : Interpreter μ} {c : Context} {chunk : Chunk} {s s' : State} {ext : Extension μ}
  {before after : List (Extension μ)} {m m' m'' left : μ}

/-- An admitted chunk in a branch that is taken is offered to the extensions, and what is made of it
has to be within the limit on the stacks. -/
theorem step_eq_of_offer (hactive : s.isActive) (hadmitted : Admitted c.limits chunk s)
    {position : Nat} {x : Session μ State}
    (h : offer i.inner chunk c.flags (s.counted chunk)
      (i.perform (Execute.chunk c position (s.counted chunk) chunk)) i.extensions m = x m') :
    i.step c position chunk s m = (x >>= fun s' => Session.lift (checkDepth c.limits s')) m' := by
  have hcounted : (s.counted chunk).isActive := hactive
  rw [← dispatch_of_active hcounted] at h
  rw [step_of_admitted hadmitted]
  cases hx : x m' with
  | ok a left => rw [EStateM.bind_ok hx, EStateM.bind_ok (h.trans hx)]
  | error e left => rw [EStateM.bind_error hx, EStateM.bind_error (h.trans hx)]

/-- **The first extension that claims a chunk executes it**, and the interpreter does not. -/
theorem step_of_claimed (hactive : s.isActive) (hadmitted : Admitted c.limits chunk s)
    (hexts : i.extensions = before ++ ext :: after) (hbefore : Declined chunk c.flags before m m')
    (hclaims : ext.claims chunk c.flags m' = (true, m'')) (position : Nat) :
    i.step c position chunk s m = (ext.handleOpcode i.inner chunk c.flags (s.counted chunk) >>=
      fun s' => Session.lift (checkDepth c.limits s')) m'' := by
  refine step_eq_of_offer hactive hadmitted ?_
  rw [hexts, offer_of_declined hbefore]
  exact offer_of_claims hclaims

/-- **A chunk that no extension claims** does what it says. -/
theorem step_of_unclaimed (hactive : s.isActive) (hadmitted : Admitted c.limits chunk s)
    (hdeclined : Declined chunk c.flags i.extensions m m') (position : Nat) :
    i.step c position chunk s m =
      (i.perform (Execute.chunk c position (s.counted chunk) chunk) >>= fun s' =>
        Session.lift (checkDepth c.limits s')) m' := by
  refine step_eq_of_offer hactive hadmitted ?_
  rw [← List.append_nil i.extensions, offer_of_declined hdeclined]
  rfl

/-- One of the two is the case. -/
theorem declined_or_claimed (chunk : Chunk) (flags : Flags) (exts : List (Extension μ)) (m : μ) :
    (∃ m', Declined chunk flags exts m m') ∨
    ∃ before ext after m' m'', exts = before ++ ext :: after ∧
      Declined chunk flags before m m' ∧ ext.claims chunk flags m' = (true, m'') := by
  induction exts generalizing m with
  | nil => exact .inl ⟨m, .nil⟩
  | cons ext rest ih =>
    cases hclaims : ext.claims chunk flags m with
    | mk answer left =>
      cases answer with
      | true => exact .inr ⟨[], ext, rest, m, left, rfl, .nil, hclaims⟩
      | false =>
        rcases ih left with ⟨m', hrest⟩ | ⟨before, found, after, m', m'', rfl, hbefore, hfound⟩
        · exact .inl ⟨m', .cons hclaims hrest⟩
        · exact .inr ⟨ext :: before, found, after, m', m'', rfl, .cons hclaims hbefore, hfound⟩

/-- The stacks are within their limit after each chunk, whoever executed it. -/
theorem depth_le_of_step {position : Nat} (h : i.step c position chunk s m = .ok s' left) :
    s'.depth ≤ c.limits.maxStackSize := by
  obtain ⟨accepted, _, _, h⟩ := EStateM.eq_ok_of_bind h
  obtain ⟨done, _, _, h⟩ := EStateM.eq_ok_of_bind h
  obtain ⟨rfl, hdepth⟩ := BuiltIn.checkDepth_eq_ok_iff.mp (Session.eq_ok_of_lift h)
  exact hdepth

theorem depth_le_of_steps {position : Nat} {rest : Program}
    (h : i.steps c position (chunk :: rest) s m = .ok s' left) :
    s'.depth ≤ c.limits.maxStackSize := by
  induction rest generalizing position chunk s m with
  | nil =>
    obtain ⟨_, _, hstep, h⟩ := EStateM.eq_ok_of_bind h
    cases h
    exact depth_le_of_step hstep
  | cons next rest ih =>
    obtain ⟨_, _, _, h⟩ := EStateM.eq_ok_of_bind h
    exact ih h

theorem depth_le_of_after {stack : Stack Bytes} {n : Nat} (hn : n < c.script.length)
    (h : i.after c stack (n + 1) m = .ok s' left) : s'.depth ≤ c.limits.maxStackSize := by
  obtain ⟨chunk, rest, hscript⟩ := List.exists_cons_of_length_pos (Nat.zero_lt_of_lt hn)
  unfold after at h
  rw [hscript, List.take_succ_cons] at h
  exact depth_le_of_steps h

end Step

end Interpreter

end SpendScript
