/-
  Two runs of one method: relations between the states it starts in, and between those
  it ends in.

  `Relates P x Q R` says that `x`, run from two states that are related by `P`, ends both
  times the same way: it returns the same value in states related by `Q`, or throws the
  same exception in states related by `R`.
-/
import JaySip.Java.Exec

namespace Java

variable {ε σ α β : Type}

/-- Two results of a method agree. -/
inductive Agree (Q : α → σ → σ → Prop) (R : σ → σ → Prop) :
    EStateM.Result ε σ α → EStateM.Result ε σ α → Prop
  | ok {a s t} : Q a s t → Agree Q R (.ok a s) (.ok a t)
  | error {e s t} : R s t → Agree Q R (.error e s) (.error e t)

/-- The method does not tell states related by `P` apart. -/
def Relates (P : σ → σ → Prop) (x : EStateM ε σ α) (Q : α → σ → σ → Prop) (R : σ → σ → Prop) :
    Prop :=
  ∀ s t, P s t → Agree Q R (x s) (x t)

namespace Relates

variable {P P' R R' : σ → σ → Prop} {Q Q' : α → σ → σ → Prop} {x : EStateM ε σ α}

/-- The two runs end in related states. -/
theorem after {S : σ → σ → Prop} (h : Relates P x (fun _ => S) S) {s t : σ} (hp : P s t) :
    S (after x s) (after x t) := by
  have ha := h s t hp
  unfold Java.after
  generalize x s = u, x t = v at ha
  cases ha with
  | ok hq => exact hq
  | error hr => exact hr

theorem mono (h : Relates P x Q R) (hP : ∀ s t, P' s t → P s t)
    (hQ : ∀ a s t, Q a s t → Q' a s t) (hR : ∀ s t, R s t → R' s t) : Relates P' x Q' R' := by
  intro s t hp
  have ha := h s t (hP s t hp)
  generalize x s = u, x t = v at ha ⊢
  cases ha with
  | ok hq => exact .ok (hQ _ _ _ hq)
  | error hr => exact .error (hR _ _ hr)

theorem pure {a : α} (h : ∀ s t, P s t → Q a s t) :
    Relates P (Pure.pure a : EStateM ε σ α) Q R := fun s t hp => .ok (h s t hp)

theorem throw {e : ε} (h : ∀ s t, P s t → R s t) :
    Relates P (MonadExcept.throw e : EStateM ε σ α) Q R := fun s t hp => .error (h s t hp)

theorem bind {S : β → σ → σ → Prop} {f : α → EStateM ε σ β} (hx : Relates P x Q R)
    (hf : ∀ a, Relates (Q a) (f a) S R) : Relates P (x >>= f) S R := by
  intro s t hp
  have ha := hx s t hp
  simp only [Bind.bind, EStateM.bind]
  generalize x s = u, x t = v at ha ⊢
  cases ha with
  | ok hq => exact hf _ _ _ hq
  | error hr => exact .error hr

theorem map {f : α → β} {S : β → σ → σ → Prop} (hx : Relates P x (fun a => S (f a)) R) :
    Relates P (f <$> x) S R := by
  intro s t hp
  have ha := hx s t hp
  simp only [Functor.map, EStateM.map]
  generalize x s = u, x t = v at ha ⊢
  cases ha with
  | ok hq => exact .ok hq
  | error hr => exact .error hr

/-- A method that reads the state does not tell related states apart if what it goes on with
    does not. -/
theorem get {f : σ → EStateM ε σ α} (he : ∀ s t, P s t → f s = f t)
    (hf : ∀ s, Relates P (f s) Q R) : Relates P (MonadState.get >>= f) Q R := by
  intro s t hp
  have ha := hf s s t hp
  rw [show f s t = f t t by rw [he s t hp]] at ha
  exact ha

theorem modify {Q : PUnit → σ → σ → Prop} {f : σ → σ} (h : ∀ s t, P s t → Q ⟨⟩ (f s) (f t)) :
    Relates P (modify f : EStateM ε σ PUnit) Q R := fun s t hp => .ok (h s t hp)

theorem lift {r : Except ε α} (hQ : ∀ a, r = .ok a → ∀ s t, P s t → Q a s t)
    (hR : ∀ s t, P s t → R s t) : Relates P (Java.lift r : EStateM ε σ α) Q R := by
  cases r with
  | ok a => exact pure (hQ a rfl)
  | error e => exact throw hR

theorem tryCatch {h : ε → EStateM ε σ α} (hx : Relates P x Q R)
    (hh : ∀ e, Relates R (h e) Q R') : Relates P (MonadExcept.tryCatch x h) Q R' := by
  intro s t hp
  have ha := hx s t hp
  simp only [MonadExcept.tryCatch, tryCatchThe, MonadExceptOf.tryCatch, EStateM.tryCatch]
  generalize x s = u, x t = v at ha ⊢
  cases ha with
  | ok hq => exact .ok hq
  | error hr => exact hh _ _ _ hr

theorem ite {c : Prop} [Decidable c] {y : EStateM ε σ α} (hx : c → Relates P x Q R)
    (hy : ¬ c → Relates P y Q R) : Relates P (if c then x else y) Q R := by
  split_ifs with hc
  · exact hx hc
  · exact hy hc

end Relates

end Java
