/-
  Deterministic machines driven by inputs: runs, their histories, and induction
  over them.

  A history is the list of the steps taken so far, oldest first; a property of a
  step may look at the history before it (`Along`).
-/
import Mathlib.Data.List.Induction
import Mathlib.Tactic.Common

/-- A machine: its initial states, and the state after each input. -/
structure Machine (σ ι : Type) where
  init : σ → Prop
  step : σ → ι → σ

/-- One step of a run. -/
structure Machine.Step (σ ι : Type) where
  pre : σ
  input : ι
  post : σ

namespace Machine

variable {σ ι : Type} (M : Machine σ ι)

/-- The state after the inputs `is`. -/
def run (s : σ) (is : List ι) : σ := is.foldl M.step s

/-- The step that input `i` makes from `s`. -/
def stepOf (s : σ) (i : ι) : Step σ ι := ⟨s, i, M.step s i⟩

/-- The history of the run of `is` from `s`. -/
def history (s : σ) : List ι → List (Step σ ι)
  | [] => []
  | i :: is => M.stepOf s i :: history (M.step s i) is

/-- `P` holds at every step of the run of `is` from `s`, each seen with the
    history before it. -/
def Along (s : σ) (is : List ι) (P : List (Step σ ι) → Step σ ι → Prop) : Prop :=
  ∀ h st t, M.history s is = h ++ st :: t → P h st

/-- States of runs from an initial state. -/
def Reachable (s : σ) : Prop := ∃ s₀ is, M.init s₀ ∧ M.run s₀ is = s

/-! ## Runs -/

@[simp] theorem run_nil (s : σ) : M.run s [] = s := rfl

@[simp] theorem run_cons (s : σ) (i : ι) (is : List ι) :
    M.run s (i :: is) = M.run (M.step s i) is := rfl

@[simp] theorem run_append (s : σ) (is js : List ι) :
    M.run s (is ++ js) = M.run (M.run s is) js := List.foldl_append ..

@[simp] theorem history_append (s : σ) (is js : List ι) :
    M.history s (is ++ js) = M.history s is ++ M.history (M.run s is) js := by
  induction is generalizing s with
  | nil => rfl
  | cons i is ih => simp only [List.cons_append, history, ih, run_cons]

@[simp] theorem length_history (s : σ) (is : List ι) : (M.history s is).length = is.length := by
  induction is generalizing s with
  | nil => rfl
  | cons i is ih => rw [history, List.length_cons, ih, List.length_cons]

/-- Every step of a history is the machine's step from the state its prefix of
    the inputs leads to. -/
theorem history_split {s : σ} {is : List ι} {h t : List (Step σ ι)} {st : Step σ ι}
    (e : M.history s is = h ++ st :: t) :
    ∃ js i ks, is = js ++ i :: ks ∧ h = M.history s js ∧ st = M.stepOf (M.run s js) i := by
  induction is generalizing s h with
  | nil => simp [history] at e
  | cons i is ih =>
    cases h with
    | nil =>
      simp only [history, List.nil_append, List.cons.injEq] at e
      exact ⟨[], i, is, rfl, rfl, e.1.symm⟩
    | cons st' h =>
      simp only [history, List.cons_append, List.cons.injEq] at e
      obtain ⟨js, j, ks, rfl, rfl, rfl⟩ := ih e.2
      exact ⟨i :: js, j, ks, rfl, by rw [history, e.1], rfl⟩

/-- A map of states and inputs that commutes with the steps commutes with the runs. -/
theorem run_map {σ' ι' : Type} {M' : Machine σ' ι'} {f : σ → σ'} {g : ι → ι'}
    (h : ∀ s i, f (M.step s i) = M'.step (f s) (g i)) (s : σ) (is : List ι) :
    f (M.run s is) = M'.run (f s) (is.map g) := by
  induction is generalizing s with
  | nil => rfl
  | cons i is ih => rw [run_cons, ih, h, List.map_cons, run_cons]

theorem Reachable.run {s : σ} (h : M.Reachable s) (is : List ι) : M.Reachable (M.run s is) := by
  obtain ⟨s₀, js, h₀, rfl⟩ := h
  exact ⟨s₀, js ++ is, h₀, M.run_append ..⟩

/-! ## Induction -/

/-- What holds initially and is kept by every step holds in every reachable state. -/
theorem Reachable.inv {I : σ → Prop} (h₀ : ∀ s, M.init s → I s) (hs : ∀ s i, I s → I (M.step s i))
    {s : σ} (h : M.Reachable s) : I s := by
  obtain ⟨s₀, is, hi, rfl⟩ := h
  have : ∀ s, I s → I (M.run s is) := by
    induction is with
    | nil => exact fun _ h => h
    | cons i is ih => exact fun s h => ih _ (hs s i h)
  exact this s₀ (h₀ s₀ hi)

theorem along_nil (s : σ) (P : List (Step σ ι) → Step σ ι → Prop) : M.Along s [] P := by
  intro h st t e
  simp [history] at e

theorem along_snoc {s : σ} {is : List ι} {i : ι} {P : List (Step σ ι) → Step σ ι → Prop} :
    M.Along s (is ++ [i]) P ↔ M.Along s is P ∧ P (M.history s is) (M.stepOf (M.run s is) i) := by
  have e : M.history s (is ++ [i]) = M.history s is ++ [M.stepOf (M.run s is) i] :=
    M.history_append ..
  unfold Along
  rw [e]
  constructor
  · intro h
    exact ⟨fun l st t ht => h l st (t ++ [M.stepOf (M.run s is) i]) (by rw [ht]; simp),
      h _ _ [] rfl⟩
  · rintro ⟨h, hi⟩ l st t ht
    rcases List.eq_nil_or_concat t with rfl | ⟨t', st', rfl⟩
    · obtain ⟨rfl, e'⟩ := List.append_inj' ht rfl
      cases e'
      exact hi
    · have ht' : M.history s is ++ [M.stepOf (M.run s is) i] = (l ++ st :: t') ++ [st'] := by
        simpa using ht
      exact h l st t' (List.append_inj' ht' rfl).1

theorem along_cons {s : σ} {i : ι} {is : List ι} {P : List (Step σ ι) → Step σ ι → Prop} :
    M.Along s (i :: is) P ↔
      P [] (M.stepOf s i) ∧ M.Along (M.step s i) is fun h => P (M.stepOf s i :: h) := by
  constructor
  · exact fun h => ⟨h [] _ _ rfl, fun l st t e => h (_ :: l) st t (by rw [history, e]; rfl)⟩
  · rintro ⟨hi, h⟩ l st t e
    cases l with
    | nil =>
      simp only [history, List.nil_append, List.cons.injEq] at e
      exact e.1 ▸ hi
    | cons st' l =>
      simp only [history, List.cons_append, List.cons.injEq] at e
      exact e.1 ▸ h l st t e.2

/-- Runs whose steps meet the condition `C` keep the invariant `I` of histories and
    states, and have the property `P` at every step. -/
theorem along_inv {s₀ : σ} {I : List (Step σ ι) → σ → Prop}
    {C P : List (Step σ ι) → Step σ ι → Prop} (h₀ : I [] s₀)
    (hs : ∀ h s i, I h s → C h (M.stepOf s i) →
      I (h ++ [M.stepOf s i]) (M.step s i) ∧ P h (M.stepOf s i)) :
    ∀ is, M.Along s₀ is C → I (M.history s₀ is) (M.run s₀ is) ∧ M.Along s₀ is P := by
  intro is
  induction is using List.reverseRecOn with
  | nil => exact fun _ => ⟨h₀, M.along_nil _ _⟩
  | append_singleton is i ih =>
    intro hC
    rw [along_snoc] at hC
    obtain ⟨hI, hP⟩ := ih hC.1
    obtain ⟨hI', hP'⟩ := hs _ _ i hI hC.2
    refine ⟨?_, M.along_snoc.2 ⟨hP, hP'⟩⟩
    rw [history_append, run_append]
    exact hI'

/-- A property of the inputs holds along every run of such inputs. -/
theorem along_of_forall {s : σ} {is : List ι} {C : ι → Prop} (h : ∀ i ∈ is, C i) :
    M.Along s is fun _ st => C st.input := by
  intro l st t e
  obtain ⟨js, i, ks, rfl, -, rfl⟩ := M.history_split e
  exact h i (by simp)

/-- Runs whose steps meet the condition `C` keep an invariant that such steps keep. -/
theorem along_keeps {s₀ : σ} {I : List (Step σ ι) → σ → Prop}
    {C : List (Step σ ι) → Step σ ι → Prop} (h₀ : I [] s₀)
    (hs : ∀ h s i, I h s → C h (M.stepOf s i) → I (h ++ [M.stepOf s i]) (M.step s i))
    {is : List ι} (hC : M.Along s₀ is C) : I (M.history s₀ is) (M.run s₀ is) :=
  (M.along_inv (P := fun _ _ => True) h₀ (fun h s i hI hC => ⟨hs h s i hI hC, trivial⟩) is hC).1

/-- A property that a state has exactly if the state before has it and the step between them
    meets the condition `C` holds at the end of exactly the runs of such steps. -/
theorem run_iff {s₀ : σ} {P : σ → Prop} {C : Step σ ι → Prop} (h₀ : P s₀)
    (hs : ∀ s i, P (M.step s i) ↔ P s ∧ C (M.stepOf s i)) (is : List ι) :
    P (M.run s₀ is) ↔ M.Along s₀ is fun _ => C := by
  induction is using List.reverseRecOn with
  | nil => exact iff_of_true h₀ (M.along_nil _ _)
  | append_singleton is i ih => rw [run_append, run_cons, run_nil, hs, ih, along_snoc]

/-- Two properties that agree on every step that meets the condition `C`, from a state with
    its invariant, hold along the same runs of such steps. -/
theorem along_congr_of {s₀ : σ} {I : List (Step σ ι) → σ → Prop}
    {C P P' : List (Step σ ι) → Step σ ι → Prop} (h₀ : I [] s₀)
    (hs : ∀ h s i, I h s → C h (M.stepOf s i) → I (h ++ [M.stepOf s i]) (M.step s i))
    (hP : ∀ h s i, I h s → C h (M.stepOf s i) → (P h (M.stepOf s i) ↔ P' h (M.stepOf s i)))
    (is : List ι) (hC : M.Along s₀ is C) : M.Along s₀ is P ↔ M.Along s₀ is P' := by
  induction is using List.reverseRecOn with
  | nil => exact iff_of_true (M.along_nil _ _) (M.along_nil _ _)
  | append_singleton is i ih =>
    rw [along_snoc] at hC
    rw [along_snoc, along_snoc, ih hC.1, hP _ _ i (M.along_keeps h₀ hs hC.1) hC.2]

/-- A property that holds exactly of the steps that meet the condition `C`, from a state with
    an invariant that such steps keep, holds along exactly the runs of such steps. -/
theorem along_iff {s₀ : σ} {I : List (Step σ ι) → σ → Prop}
    {C P : List (Step σ ι) → Step σ ι → Prop} (h₀ : I [] s₀)
    (hs : ∀ h s i, I h s → C h (M.stepOf s i) → I (h ++ [M.stepOf s i]) (M.step s i))
    (hP : ∀ h s i, I h s → (P h (M.stepOf s i) ↔ C h (M.stepOf s i))) (is : List ι) :
    M.Along s₀ is P ↔ M.Along s₀ is C := by
  induction is using List.reverseRecOn with
  | nil => exact iff_of_true (M.along_nil _ _) (M.along_nil _ _)
  | append_singleton is i ih =>
    rw [along_snoc, along_snoc, ih]
    exact and_congr_right fun hC => hP _ _ i (M.along_keeps h₀ hs hC)

/-- Two properties that agree on every step from a state with its invariant hold along the
    same runs. -/
theorem along_congr {s₀ : σ} {I : List (Step σ ι) → σ → Prop}
    {P P' : List (Step σ ι) → Step σ ι → Prop} (h₀ : I [] s₀)
    (hs : ∀ h s i, I h s → I (h ++ [M.stepOf s i]) (M.step s i))
    (hP : ∀ h s i, I h s → (P h (M.stepOf s i) ↔ P' h (M.stepOf s i))) (is : List ι) :
    M.Along s₀ is P ↔ M.Along s₀ is P' :=
  M.along_iff h₀ (fun h s i hI _ => hs h s i hI) hP is

end Machine
