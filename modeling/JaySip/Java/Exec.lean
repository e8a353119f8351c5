/-
  Stateful methods that can throw: weakest preconditions.

  A method is a program of `EStateM`: an exception keeps the state reached when
  it was thrown, as an object does in Java.  `wp x Q E s` says that `x` run from
  `s` returns in `Q` or throws in `E`.
-/
import Mathlib.Tactic.Basic
import JaySip.Java.Text

namespace Java

variable {ε σ α β : Type}

/-- The state a method ends in, whether it returns or throws. -/
def after (x : EStateM ε σ α) (s : σ) : σ :=
  match x s with
  | .ok _ s' => s'
  | .error _ s' => s'

/-- Weakest precondition: a normal return ends in `Q`, an exception in `E`. -/
def wp (x : EStateM ε σ α) (Q : α → σ → Prop) (E : ε → σ → Prop) (s : σ) : Prop :=
  match x s with
  | .ok a s' => Q a s'
  | .error e s' => E e s'

/-- The value of a pure computation, or its exception. -/
def lift (r : Except ε α) : EStateM ε σ α :=
  match r with
  | .ok a => pure a
  | .error e => throw e

@[simp] theorem ok_bind (a : β) (f : β → Except ε α) : (Except.ok a >>= f) = f a := rfl

@[simp] theorem error_bind (e : ε) (f : β → Except ε α) : (Except.error e >>= f) = .error e := rfl

/-- A sequence returns when both of its parts do. -/
theorem bind_eq_ok {x : Except ε β} {f : β → Except ε α} {a : α} :
    (x >>= f) = .ok a ↔ ∃ b, x = .ok b ∧ f b = .ok a := by
  cases x <;> simp

@[simp] theorem lift_pure (a : α) : (lift (pure a) : EStateM ε σ α) = pure a := rfl

@[simp] theorem lift_bind (x : Except ε β) (f : β → Except ε α) :
    (lift (x >>= f) : EStateM ε σ α) = lift x >>= fun b => lift (f b) := by
  cases x <;> rfl

/-! ## Loops that fill a list -/

section
variable {f : α → Except ε β} {x : α} {y : β} {xs : List α} {ys : List β}

theorem mapM_cons_eq_ok : (x :: xs).mapM f = .ok ys ↔
    ∃ y ys', f x = .ok y ∧ xs.mapM f = .ok ys' ∧ ys = y :: ys' := by
  rw [List.mapM_cons]
  cases f x with
  | error e => simp
  | ok y =>
    cases xs.mapM f with
    | error e => simp
    | ok ys' => simp [pure, Except.pure, eq_comm]

/-- The loop returns when each of its turns does. -/
theorem mapM_returns : (∃ ys, xs.mapM f = .ok ys) ↔ ∀ x ∈ xs, ∃ y, f x = .ok y := by
  induction xs with
  | nil => exact iff_of_true ⟨[], List.mapM_nil⟩ (by simp)
  | cons x xs ih =>
    simp only [mapM_cons_eq_ok, List.forall_mem_cons, ← ih]
    constructor
    · rintro ⟨_, y, ys, hy, hys, rfl⟩
      exact ⟨⟨y, hy⟩, ys, hys⟩
    · rintro ⟨⟨y, hy⟩, ys, hys⟩
      exact ⟨_, y, ys, hy, hys, rfl⟩

/-- The list holds what the turns return. -/
theorem mem_mapM (h : xs.mapM f = .ok ys) : y ∈ ys ↔ ∃ x ∈ xs, f x = .ok y := by
  induction xs generalizing ys with
  | nil =>
    cases h
    simp
  | cons x xs ih =>
    obtain ⟨z, ys', hz, hys, rfl⟩ := mapM_cons_eq_ok.1 h
    rw [List.mem_cons, ih hys]
    constructor
    · rintro (rfl | ⟨x', hx', hy⟩)
      · exact ⟨x, List.mem_cons_self, hz⟩
      · exact ⟨x', List.mem_cons_of_mem _ hx', hy⟩
    · rintro ⟨x', hx', hy⟩
      rcases List.mem_cons.1 hx' with rfl | hx'
      · exact Or.inl (Except.ok.inj (hy.symm.trans hz))
      · exact Or.inr ⟨x', hx', hy⟩

end

/-! ## Rules -/

section
variable {Q : α → σ → Prop} {E : ε → σ → Prop} {s : σ}

@[simp] theorem wp_pure (a : α) : wp (pure a : EStateM ε σ α) Q E s ↔ Q a s := Iff.rfl

@[simp] theorem wp_throw (e : ε) : wp (throw e : EStateM ε σ α) Q E s ↔ E e s := Iff.rfl

@[simp] theorem wp_bind (x : EStateM ε σ β) (f : β → EStateM ε σ α) :
    wp (x >>= f) Q E s ↔ wp x (fun b => wp (f b) Q E) E s := by
  simp only [wp, bind, EStateM.bind]
  cases x s <;> rfl

@[simp] theorem wp_map (x : EStateM ε σ β) (f : β → α) :
    wp (f <$> x) Q E s ↔ wp x (fun b => Q (f b)) E s := by
  simp only [wp, Functor.map, EStateM.map]
  cases x s <;> rfl

@[simp] theorem wp_get {Q : σ → σ → Prop} :
    wp (get : EStateM ε σ σ) Q E s ↔ Q s s := Iff.rfl

@[simp] theorem wp_modify {Q : PUnit → σ → Prop} (f : σ → σ) :
    wp (modify f : EStateM ε σ PUnit) Q E s ↔ Q ⟨⟩ (f s) := Iff.rfl

@[simp] theorem wp_tryCatch (x : EStateM ε σ α) (h : ε → EStateM ε σ α) :
    wp (tryCatch x h) Q E s ↔ wp x Q (fun e => wp (h e) Q E) s := by
  simp only [wp, tryCatch, tryCatchThe, MonadExceptOf.tryCatch, EStateM.tryCatch]
  cases x s <;> rfl

@[simp] theorem wp_ite {c : Prop} [Decidable c] (x y : EStateM ε σ α) :
    wp (if c then x else y) Q E s ↔ (c → wp x Q E s) ∧ (¬ c → wp y Q E s) := by
  split_ifs with h <;> simp [h]

/-- A lifted computation leaves the state as it is. -/
@[simp] theorem wp_lift (r : Except ε α) :
    wp (lift r : EStateM ε σ α) Q E s ↔ (∀ a, r = .ok a → Q a s) ∧ ∀ e, r = .error e → E e s := by
  cases r <;> simp [lift]

@[simp] theorem wp_lift_ok {a : α} :
    wp (lift (.ok a) : EStateM ε σ α) Q E s ↔ Q a s := Iff.rfl

theorem wp_mono {Q' : α → σ → Prop} {E' : ε → σ → Prop} {x : EStateM ε σ α} (h : wp x Q E s)
    (hQ : ∀ a s', Q a s' → Q' a s') (hE : ∀ e s', E e s' → E' e s') : wp x Q' E' s := by
  unfold wp at h ⊢
  cases hx : x s with
  | ok a s' => rw [hx] at h; exact hQ _ _ h
  | error e s' => rw [hx] at h; exact hE _ _ h

end

/-- A property of the final state is a postcondition of both exits. -/
theorem wp_after {P : σ → Prop} {x : EStateM ε σ α} {s : σ} :
    wp x (fun _ => P) (fun _ => P) s ↔ P (after x s) := by
  unfold wp after
  cases x s <;> rfl

end Java
