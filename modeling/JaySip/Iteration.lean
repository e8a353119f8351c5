/-
  Loops: a turn continues from a state or ends with a result.

  A loop ends if each turn makes some measure smaller.  Where a turn need not do so because it
  falls into a trap, the loop runs forever exactly if it reaches one.
-/
import Mathlib.Logic.Relation
import Mathlib.Order.Filter.AtTopBot.Basic

namespace Iteration

open Filter

variable {σ ρ : Type} {step : σ → σ ⊕ ρ} {s s' : σ} {r : ρ} {m n : ℕ}

/-- The result, if there is one after `n` turns. -/
def run (step : σ → σ ⊕ ρ) : ℕ → σ → Option ρ
  | 0, _ => none
  | n + 1, s =>
    match step s with
    | .inl s' => run step n s'
    | .inr r => some r

/-- The state before some turn of the loop from `s`. -/
def Reaches (step : σ → σ ⊕ ρ) : σ → σ → Prop :=
  Relation.ReflTransGen fun s s' => step s = .inl s'

theorem run_inl (h : step s = .inl s') : run step (n + 1) s = run step n s' := by
  rw [run, h]

theorem run_inr (h : step s = .inr r) : run step (n + 1) s = some r := by
  rw [run, h]

/-- The turns that a result takes are enough. -/
theorem run_mono (h : run step n s = some r) (hn : n ≤ m) : run step m s = some r := by
  induction n generalizing s m with
  | zero => cases h
  | succ n ih =>
    obtain ⟨m, rfl⟩ := Nat.exists_eq_succ_of_ne_zero (Nat.ne_zero_of_lt hn)
    cases hs : step s with
    | inl s' =>
      rw [run_inl hs] at h ⊢
      exact ih h (Nat.le_of_succ_le_succ hn)
    | inr r' =>
      rw [run_inr hs] at h ⊢
      exact h

/-- A result does not depend on the turns that are allowed. -/
theorem run_unique {r' : ρ} (h : run step n s = some r) (h' : run step m s = some r') : r = r' :=
  Option.some.inj ((run_mono h (Nat.le_max_left n m)).symm.trans
    (run_mono h' (Nat.le_max_right n m)))

/-- A result is that of all loops with enough turns. -/
theorem eventually_run (h : run step n s = some r) : ∀ᶠ m in atTop, run step m s = some r :=
  eventually_atTop.2 ⟨n, fun _ hm => run_mono h hm⟩

/-- What holds before every turn says what holds of the result. -/
theorem run_invariant {I : σ → Prop} {Q : ρ → Prop} (hI : ∀ s s', I s → step s = .inl s' → I s')
    (hQ : ∀ s r, I s → step s = .inr r → Q r) (hs : I s) (h : run step n s = some r) : Q r := by
  induction n generalizing s with
  | zero => cases h
  | succ n ih =>
    cases hstep : step s with
    | inl s' =>
      rw [run_inl hstep] at h
      exact ih (hI s s' hs hstep) h
    | inr r' =>
      rw [run_inr hstep] at h
      obtain rfl := Option.some.inj h
      exact hQ s r' hs hstep

/-- Where a turn is itself a loop: if the turns are counted down, and each is over with enough
    turns of its own, then so is the loop, and the last turn says how. -/
theorem eventually_run_countdown {step : ℕ → σ → σ ⊕ ρ} {I : ℕ → σ → Prop} {Q : ρ → Prop}
    (hI : ∀ n s, I n s →
      (∃ m s', n = m + 1 ∧ (∀ᶠ k in atTop, step k s = .inl s') ∧ I m s') ∨
      ∃ r, (∀ᶠ k in atTop, step k s = .inr r) ∧ Q r) (hs : I n s) :
    ∃ r, (∀ᶠ k in atTop, run (step k) (n + 1) s = some r) ∧ Q r := by
  induction n generalizing s with
  | zero =>
    rcases hI 0 s hs with ⟨m, s', hm, -⟩ | ⟨r, hr, hQ⟩
    · cases hm
    · exact ⟨r, hr.mono fun k hk => run_inr hk, hQ⟩
  | succ n ih =>
    rcases hI (n + 1) s hs with ⟨m, s', hm, hs', hI'⟩ | ⟨r, hr, hQ⟩
    · cases hm
      obtain ⟨r, hr, hQ⟩ := ih hI'
      refine ⟨r, ?_, hQ⟩
      filter_upwards [hs', hr] with k hk hk'
      rw [run_inl hk, hk']
    · exact ⟨r, hr.mono fun k hk => run_inr hk, hQ⟩

/-- A loop whose turns are counted down ends, and the last turn says how. -/
theorem run_countdown {I : ℕ → σ → Prop} {Q : ρ → Prop}
    (hI : ∀ n s, I n s → (∃ m s', n = m + 1 ∧ step s = .inl s' ∧ I m s') ∨
      ∃ r, step s = .inr r ∧ Q r) (hs : I n s) : ∃ r, run step (n + 1) s = some r ∧ Q r := by
  have hfamily : ∀ n s, I n s →
      (∃ m s', n = m + 1 ∧ (∀ᶠ _ in (atTop : Filter ℕ), step s = .inl s') ∧ I m s') ∨
      ∃ r, (∀ᶠ _ in (atTop : Filter ℕ), step s = .inr r) ∧ Q r := by
    intro n s hns
    simpa only [eventually_const] using hI n s hns
  obtain ⟨r, hr, hQ⟩ := eventually_run_countdown hfamily hs
  exact ⟨r, eventually_const.1 hr, hQ⟩

section
variable {μ : σ → ℕ} {Trap : σ → Prop}

/-- A turn either makes the measure smaller or falls into a trap, which it does not leave. -/
structure Trapping (step : σ → σ ⊕ ρ) (μ : σ → ℕ) (Trap : σ → Prop) : Prop where
  turn : ∀ {s s'}, step s = .inl s' → Trap s ∨ μ s' < μ s
  stay : ∀ {s}, Trap s → ∃ s', step s = .inl s' ∧ Trap s'

theorem Trapping.run_none (h : Trapping step μ Trap) (ht : Trap s) : run step n s = none := by
  induction n generalizing s with
  | zero => rfl
  | succ n ih =>
    obtain ⟨s', hs, ht'⟩ := h.stay ht
    rw [run_inl hs]
    exact ih ht'

/-- Without a trap the measure bounds the turns. -/
theorem Trapping.run_some (h : Trapping step μ Trap)
    (hs : ∀ s', Reaches step s s' → ¬ Trap s') (hn : μ s < n) : ∃ r, run step n s = some r := by
  induction n generalizing s with
  | zero => exact absurd hn (Nat.not_lt_zero _)
  | succ n ih =>
    cases hstep : step s with
    | inl s' =>
      rw [run_inl hstep]
      refine ih (fun t ht => hs t (Relation.ReflTransGen.head hstep ht)) ?_
      rcases h.turn hstep with ht | hlt
      · exact absurd ht (hs s Relation.ReflTransGen.refl)
      · omega
    | inr r => exact ⟨r, run_inr hstep⟩

/-- A loop runs forever exactly if it reaches a trap. -/
theorem Trapping.forever_iff (h : Trapping step μ Trap) :
    (∀ n, run step n s = none) ↔ ∃ s', Reaches step s s' ∧ Trap s' := by
  constructor
  · intro hnone
    by_contra hs
    obtain ⟨r, hr⟩ := h.run_some (n := μ s + 1) (fun s' hr ht => hs ⟨s', hr, ht⟩)
      (Nat.lt_succ_self _)
    rw [hnone] at hr
    cases hr
  · rintro ⟨s', hr, ht⟩ n
    induction hr using Relation.ReflTransGen.head_induction_on generalizing n with
    | refl => exact h.run_none ht
    | head hs _ ih =>
      cases n with
      | zero => rfl
      | succ n => rw [run_inl hs, ih]

end

end Iteration
