import SpendScript.Interpreter
/-!
# What a session comes to

A session changes a memory and ends with a result or a failure. Most statements about verification
are about the end alone; those about extensions also need to know what of the memory stays.

What this file fixes:

* `Session.outcome`, `Session.memory` -- the end of a session, and the memory it leaves.
* `Run.observed_bind` -- making the questions of a run known to an observer respects sequences, so
  that a session all of whose pieces are observed runs is itself one observed run.
* `Run.outcome_observed`, `Run.view_observed` -- an observed run ends as the run does, and changes
  nothing of the memory but what its observer changes.
-/

namespace SpendScript

variable {μ ν α β : Type}

/-- A sequence of computations that may fail succeeds if both pieces do. -/
theorem eq_ok_of_bind {ε : Type} {x : Except ε α} {f : α → Except ε β} {b : β}
    (h : x >>= f = .ok b) : ∃ a, x = .ok a ∧ f a = .ok b := by
  cases x with
  | error e => cases h
  | ok a => exact ⟨a, rfl, h⟩

/-- A check succeeds before what follows it succeeds. -/
theorem check_bind_eq_ok_iff {ε : Type} {x : Except ε Unit} {f : Unit → Except ε β} {b : β} :
    x >>= f = .ok b ↔ x = .ok () ∧ f () = .ok b := by
  cases x with
  | error e => exact ⟨nofun, fun h => nomatch h.1⟩
  | ok u => exact ⟨fun h => ⟨rfl, h⟩, fun h => h.2⟩

/-- A check that is only made under a condition. -/
theorem check_ite_eq_ok_iff {ε : Type} {p : Prop} [Decidable p] {x : Except ε Unit} :
    (if p then x else .ok ()) = .ok () ↔ (p → x = .ok ()) := by
  by_cases hp : p
  · rw [if_pos hp]
    exact ⟨fun h _ => h, fun h => h hp⟩
  · rw [if_neg hp]
    exact ⟨fun _ h => absurd h hp, fun _ => rfl⟩

theorem map_eq_ok_iff {ε : Type} {x : Except ε α} {f : α → β} {b : β} :
    x.map f = .ok b ↔ ∃ a, x = .ok a ∧ f a = b := by
  cases x with
  | error e => exact ⟨nofun, nofun⟩
  | ok a => exact ⟨fun h => ⟨a, rfl, by cases h; rfl⟩, fun ⟨_, ha, hb⟩ => by cases ha; cases hb; rfl⟩

theorem map_eq_error_iff {ε : Type} {x : Except ε α} {f : α → β} {e : ε} :
    x.map f = .error e ↔ x = .error e := by
  cases x with
  | error e => exact ⟨fun h => by cases h; rfl, fun h => by cases h; rfl⟩
  | ok a => exact ⟨nofun, nofun⟩

/-- Another name for a failure changes no success. -/
theorem mapError_eq_ok_iff {ε δ : Type} {x : Except ε α} {f : ε → δ} {a : α} :
    x.mapError f = .ok a ↔ x = .ok a := by
  cases x with
  | error e => exact ⟨nofun, nofun⟩
  | ok b => exact ⟨fun h => by cases h; rfl, fun h => by cases h; rfl⟩

/-- The first failure of several gets its other name afterwards as well. -/
theorem mapM_mapError {ε δ : Type} (f : α → Except ε β) (g : ε → δ) (xs : List α) :
    (xs.mapM fun x => (f x).mapError g) = (xs.mapM f).mapError g := by
  induction xs with
  | nil => rfl
  | cons x xs ih =>
    rw [List.mapM_cons, List.mapM_cons, ih]
    cases f x with
    | error e => rfl
    | ok b => cases xs.mapM f <;> rfl

/-- What comes of several is the result of one of them each. -/
theorem exists_of_mem_mapM {ε : Type} {f : α → Except ε β} {xs : List α} {bs : List β} {b : β}
    (h : xs.mapM f = .ok bs) (hb : b ∈ bs) : ∃ x ∈ xs, f x = .ok b := by
  induction xs generalizing bs with
  | nil => cases h; cases hb
  | cons x xs ih =>
    rw [List.mapM_cons] at h
    obtain ⟨first, hfirst, h⟩ := eq_ok_of_bind h
    obtain ⟨others, hothers, h⟩ := eq_ok_of_bind h
    cases h
    cases hb with
    | head => exact ⟨x, List.mem_cons_self, hfirst⟩
    | tail _ hb =>
      obtain ⟨y, hy, hok⟩ := ih hothers hb
      exact ⟨y, List.mem_cons_of_mem x hy, hok⟩

/-- Only whether there is a result counts where it is thrown away. -/
theorem discard_eq_ok_iff {ε : Type} {x : Except ε α} :
    (discard x : Except ε Unit) = .ok () ↔ ∃ a, x = .ok a := by
  cases x with
  | error e => exact ⟨nofun, nofun⟩
  | ok a => exact ⟨fun _ => ⟨a, rfl⟩, fun _ => rfl⟩

/-- A computation of which only the result is asked for: this can be decided where failures cannot
be compared. -/
theorem eq_ok_of_toOption {ε : Type} {x : Except ε α} {a : α} (h : x.toOption = some a) :
    x = .ok a := by
  cases x with
  | error e => cases h
  | ok b => cases h; rfl

/-! ## 1. Runs as a monad -/

namespace Run

theorem ext {x y : Run α} (ha : x.asked = y.asked) (hr : x.result = y.result) : x = y := by
  cases x
  cases y
  cases ha
  cases hr
  rfl

/-- What follows a failure is not run. -/
theorem bind_error {x : Run α} {e : Failure} (h : x.result = .error e) (f : α → Run β) :
    x >>= f = ⟨x.asked, .error e⟩ := by
  show andThen x f = _
  unfold andThen
  rw [h]

/-- What follows a result is run on it, and its questions come after. -/
theorem bind_ok {x : Run α} {a : α} (h : x.result = .ok a) (f : α → Run β) :
    x >>= f = ⟨x.asked ++ (f a).asked, (f a).result⟩ := by
  show andThen x f = _
  unfold andThen
  rw [h]

/-- A sequence that succeeds is two pieces that do. -/
theorem eq_ok_of_bind {x : Run α} {f : α → Run β} {b : β} (h : (x >>= f).result = .ok b) :
    ∃ a, x.result = .ok a ∧ (f a).result = .ok b := by
  rw [result_bind] at h
  exact SpendScript.eq_ok_of_bind h

/-- Sequences are the same when what follows is the same on the result of the first piece. -/
theorem bind_congr {x : Run α} {f g : α → Run β} (h : ∀ a, x.result = .ok a → f a = g a) :
    x >>= f = x >>= g := by
  cases hx : x.result with
  | error e => rw [bind_error hx, bind_error hx]
  | ok a => rw [bind_ok hx, bind_ok hx, h a hx]

theorem result_map (f : α → β) (x : Run α) : (f <$> x).result = x.result.map f := by
  obtain ⟨asked, e | a⟩ := x
  · rfl
  · rfl

/-- A question of a sequence is one of the first piece, or of what follows its result. -/
theorem mem_asked_bind {x : Run α} {f : α → Run β} {q : Query} (h : q ∈ (x >>= f).asked) :
    q ∈ x.asked ∨ ∃ a, x.result = .ok a ∧ q ∈ (f a).asked := by
  rw [asked_bind, List.mem_append] at h
  refine h.imp_right fun h => ?_
  cases hx : x.result with
  | error e => rw [hx] at h; cases h
  | ok a => rw [hx] at h; exact ⟨a, rfl, h⟩

/-- After a computation that asks nothing the questions are those of what follows. -/
theorem mem_asked_ofExcept_bind {x : Except Failure α} {f : α → Run β} {q : Query}
    (h : q ∈ (ofExcept x >>= f).asked) : ∃ a, x = .ok a ∧ q ∈ (f a).asked :=
  (mem_asked_bind h).resolve_left List.not_mem_nil

/-- What asks nothing adds no question. -/
theorem asked_bind_of_quiet {x : Run α} {f : α → Run β} (hf : ∀ a, (f a).asked = []) :
    (x >>= f).asked = x.asked := by
  rw [asked_bind]
  refine (congrArg (x.asked ++ ·) ?_).trans (List.append_nil x.asked)
  cases x.result with
  | error e => rfl
  | ok a => exact hf a

/-- **Questions add up** along a sequence. -/
theorem countP_asked_bind {x : Run α} {f : α → Run β} {test : Query → Bool} {m n : Nat}
    (hx : x.asked.countP test ≤ m) (hf : ∀ a, x.result = .ok a → (f a).asked.countP test ≤ n) :
    (x >>= f).asked.countP test ≤ m + n := by
  rw [asked_bind, List.countP_append]
  refine Nat.add_le_add hx ?_
  cases hr : x.result with
  | error e => exact Nat.zero_le n
  | ok a => exact hf a hr

theorem countP_asked_ofExcept_bind {x : Except Failure α} {f : α → Run β} {test : Query → Bool}
    {n : Nat} (hf : ∀ a, x = .ok a → (f a).asked.countP test ≤ n) :
    (ofExcept x >>= f).asked.countP test ≤ n := by
  have h := countP_asked_bind (x := ofExcept x) (m := 0) (Nat.le_refl 0) hf
  rwa [Nat.zero_add] at h

instance : LawfulMonad Run := by
  refine LawfulMonad.mk' Run ?idMap ?pureBind ?bindAssoc
  case idMap =>
    rintro α ⟨asked, e | a⟩
    · rfl
    · exact ext (List.append_nil asked) rfl
  case pureBind =>
    intro α β a f
    exact ext (List.nil_append _) rfl
  case bindAssoc =>
    rintro α β γ ⟨asked, e | a⟩ f g
    · rfl
    · have hf : (⟨asked, .ok a⟩ : Run α) >>= f = ⟨asked ++ (f a).asked, (f a).result⟩ := rfl
      have hfg : (⟨asked, .ok a⟩ : Run α) >>= (fun a => f a >>= g)
          = ⟨asked ++ (f a >>= g).asked, (f a >>= g).result⟩ := rfl
      rw [hf, hfg]
      cases hr : (f a).result with
      | error e => rw [bind_error hr, bind_error rfl]
      | ok b =>
        rw [bind_ok hr, bind_ok rfl]
        exact ext (List.append_assoc _ _ _) rfl

end Run

/-! ## 2. The end of a session -/

namespace Session

/-- How a session ends, started from a memory. -/
def outcome (x : Session μ α) (m : μ) : Except Failure α :=
  match x m with
  | .ok a _ => .ok a
  | .error e _ => .error e

/-- The memory that a session leaves, started from a memory. -/
def memory (x : Session μ α) (m : μ) : μ :=
  match x m with
  | .ok _ m => m
  | .error _ m => m

@[simp] theorem outcome_lift (x : Except Failure α) (m : μ) : (lift x).outcome m = x := by
  cases x <;> rfl

@[simp] theorem memory_lift (x : Except Failure α) (m : μ) : (lift x).memory m = m := by
  cases x <;> rfl

theorem eq_ok_of_lift {x : Except Failure α} {a : α} {m left : μ} (h : lift x m = .ok a left) :
    x = .ok a := by
  cases x with
  | error e => cases h
  | ok b => cases h; rfl

/-- **The end of a sequence**: the second piece starts from the memory that the first leaves. -/
theorem outcome_bind (x : Session μ α) (f : α → Session μ β) (m : μ) :
    (x >>= f).outcome m = x.outcome m >>= fun a => (f a).outcome (x.memory m) := by
  unfold outcome memory
  cases hx : x m with
  | ok a left => rw [EStateM.bind_ok hx]; rfl
  | error e left => rw [EStateM.bind_error hx]; rfl

end Session

/-! ## 3. Runs as sessions -/

namespace Run

variable {observe : Query → μ → μ}

@[simp] theorem outcome_observed (x : Run α) (m : μ) :
    (x.observed observe).outcome m = x.result := by
  unfold observed Session.outcome
  cases x.result <;> rfl

@[simp] theorem observed_pure (a : α) : (pure a : Run α).observed observe = pure a := rfl

@[simp] theorem observed_ofExcept (x : Except Failure α) :
    (ofExcept x).observed observe = Session.lift x := rfl

/-- **An observed sequence is the sequence of its observed pieces.** -/
theorem observed_bind (x : Run α) (f : α → Run β) :
    (x >>= f).observed observe = x.observed observe >>= fun a => (f a).observed observe := by
  funext m
  show _ = EStateM.bind (x.observed observe) (fun a => (f a).observed observe) m
  rcases x with ⟨asked, e | a⟩
  · rfl
  · have hf : (⟨asked, .ok a⟩ : Run α) >>= f = ⟨asked ++ (f a).asked, (f a).result⟩ := rfl
    rw [hf]
    unfold observed EStateM.bind
    simp only [List.foldl_append]

theorem observed_map (f : α → β) (x : Run α) :
    (f <$> x).observed observe = f <$> x.observed observe := by
  rw [← bind_pure_comp, observed_bind, ← bind_pure_comp]
  rfl

/-- What an observer leaves of the memory, an observed run leaves. -/
theorem view_observed {view : μ → ν} (hview : ∀ q m, view (observe q m) = view m) (x : Run α)
    (m : μ) : view ((x.observed observe).memory m) = view m := by
  have hfold : ∀ (asked : List Query) (m : μ),
      view (asked.foldl (fun m q => observe q m) m) = view m := by
    intro asked
    induction asked with
    | nil => exact fun _ => rfl
    | cons q asked ih => exact fun m => (ih (observe q m)).trans (hview q m)
  rcases x with ⟨asked, e | a⟩
  · exact hfold asked m
  · exact hfold asked m

end Run

end SpendScript
