/-
  Threads with a shared state: how they start and take turns, and assertions about the places
  they have reached.

  A thread goes by its number, in the order of creation; one that has ended keeps its place.
-/
import Mathlib.Tactic.Common
import Mathlib.Data.List.Basic

namespace Java

/-- A shared state, and the place each thread has reached. -/
structure Threads (σ ρ : Type) where
  shared : σ
  places : List ρ
  deriving DecidableEq

/-- What a turn of a thread comes to: the shared state, its next place, and the thread that it
    has started, if any. -/
structure Turn (σ ρ : Type) where
  shared : σ
  place : ρ
  started : Option ρ

namespace Threads

variable {σ ρ : Type}

/-- `new Thread(..)` and its `start()`; the state takes note of the number. -/
def start (s : Threads σ ρ) (note : ℕ → σ → σ) (place : ρ) : Threads σ ρ :=
  ⟨note s.places.length s.shared, s.places ++ [place]⟩

/-- Thread `t` takes a turn; the next new thread would get the number that `f` is given. -/
def turn (f : ℕ → ℕ → σ → ρ → Turn σ ρ) (s : Threads σ ρ) (t : ℕ) : Threads σ ρ :=
  match s.places[t]? with
  | none => s
  | some p =>
    let r := f t s.places.length s.shared p
    ⟨r.shared, s.places.set t r.place ++ r.started.toList⟩

/-- The state satisfies `I`, and every thread what `A` asserts of its place. -/
structure Annotated (I : σ → Prop) (A : σ → ℕ → ρ → Prop) (s : Threads σ ρ) : Prop where
  shared : I s.shared
  place : ∀ t p, s.places[t]? = some p → A s.shared t p

/-! ## Places -/

section
variable {f : ℕ → ℕ → σ → ρ → Turn σ ρ} {s : Threads σ ρ} {t u : ℕ} {p q : ρ}

theorem lt_of_place (h : s.places[t]? = some p) : t < s.places.length :=
  (List.getElem?_eq_some_iff.1 h).1

theorem turn_none (h : s.places[t]? = none) : s.turn f t = s := by
  rw [turn, h]

theorem turn_some (h : s.places[t]? = some p) : s.turn f t =
    ⟨(f t s.places.length s.shared p).shared,
      s.places.set t (f t s.places.length s.shared p).place ++
        (f t s.places.length s.shared p).started.toList⟩ := by
  rw [turn, h]

/-- A turn that comes to nothing. -/
theorem turn_stay (h : s.places[t]? = some p)
    (hf : f t s.places.length s.shared p = ⟨s.shared, p, none⟩) : s.turn f t = s := by
  rw [turn_some h, hf]
  have hs : s.places.set t p = s.places := by
    obtain ⟨hl, rfl⟩ := List.getElem?_eq_some_iff.1 h
    exact List.set_getElem_self hl
  simp [hs]

/-- Behind a turn, a thread is where its turn has led it, or where it was, or new. -/
theorem place_turn (h : s.places[t]? = some p) : (s.turn f t).places[u]? =
    if u = t then some (f t s.places.length s.shared p).place
    else if u = s.places.length then (f t s.places.length s.shared p).started
    else s.places[u]? := by
  have ht := lt_of_place h
  rw [turn_some h]
  by_cases hu : u < s.places.length
  · rw [List.getElem?_append_left (by simpa using hu), List.getElem?_set]
    by_cases he : u = t
    · simp [he, ht]
    · rw [if_neg (Ne.symm he), if_neg he, if_neg (by omega)]
  · rw [List.getElem?_append_right (by simpa using hu), if_neg (by omega), List.length_set,
      List.getElem?_eq_none (Nat.le_of_not_lt hu)]
    by_cases he : u = s.places.length
    · rw [he, Nat.sub_self, if_pos rfl]
      cases (f t s.places.length s.shared p).started <;> rfl
    · rw [if_neg he, List.getElem?_eq_none]
      have hl := Option.length_toList_le (o := (f t s.places.length s.shared p).started)
      omega

theorem place_turn_self (h : s.places[t]? = some p) :
    (s.turn f t).places[t]? = some (f t s.places.length s.shared p).place := by
  rw [place_turn h, if_pos rfl]

/-- A turn changes the number of threads at places of a kind by its own and the new thread's. -/
theorem countP_turn (k : ρ → Bool) (h : s.places[t]? = some p) :
    (s.turn f t).places.countP k + (k p).toNat = s.places.countP k +
      (k (f t s.places.length s.shared p).place).toNat +
      (f t s.places.length s.shared p).started.toList.countP k := by
  obtain ⟨hl, he⟩ := List.getElem?_eq_some_iff.1 h
  have hle := List.boole_getElem_le_countP (p := k) hl
  rw [turn_some h, List.countP_append, List.countP_set hl, he]
  rw [he] at hle
  cases hk : k p <;> cases hk' : k (f t s.places.length s.shared p).place <;>
    simp only [hk, Bool.false_eq_true, if_true, if_false, Bool.toNat_true, Bool.toNat_false] at hle ⊢ <;>
    omega

end

/-! ## Assertions -/

namespace Annotated

variable {I : σ → Prop} {A : σ → ℕ → ρ → Prop} {s : Threads σ ρ}

/-- Threads that were there, and new ones. -/
theorem of_append {σ' : σ} {l ps : List ρ} (hI : I σ') (hl : ∀ u q, l[u]? = some q → A σ' u q)
    (hp : ∀ i p, ps[i]? = some p → A σ' (l.length + i) p) : Annotated I A ⟨σ', l ++ ps⟩ := by
  refine ⟨hI, fun u q hq => ?_⟩
  by_cases hu : u < l.length
  · rw [List.getElem?_append_left hu] at hq
    exact hl u q hq
  · rw [List.getElem?_append_right (Nat.le_of_not_lt hu)] at hq
    have hn := hp _ q hq
    rwa [Nat.add_sub_cancel' (Nat.le_of_not_lt hu)] at hn

/-- A change of the state that respects what is asserted, and new threads. -/
theorem append {σ' : σ} {ps : List ρ} (h : Annotated I A s) (hI : I σ')
    (hp : ∀ i p, ps[i]? = some p → A σ' (s.places.length + i) p)
    (hA : ∀ u q, s.places[u]? = some q → A s.shared u q → A σ' u q) :
    Annotated I A ⟨σ', s.places ++ ps⟩ :=
  of_append hI (fun u q hq => hA u q hq (h.place u q hq)) hp

/-- A change of the state that respects what is asserted. -/
theorem of_shared {σ' : σ} (h : Annotated I A s) (hI : I σ')
    (hA : ∀ u q, s.places[u]? = some q → A s.shared u q → A σ' u q) :
    Annotated I A ⟨σ', s.places⟩ :=
  ⟨hI, fun u q hq => hA u q hq (h.place u q hq)⟩

/-- The rule for threads: a turn keeps the state's invariant, leads to the assertion of the next
    place, and interferes with the assertion of no other thread. -/
theorem turn {f : ℕ → ℕ → σ → ρ → Turn σ ρ} {t : ℕ} (h : Annotated I A s)
    (hf : ∀ p, s.places[t]? = some p → A s.shared t p →
      let r := f t s.places.length s.shared p
      I r.shared ∧ A r.shared t r.place ∧ (∀ q ∈ r.started, A r.shared s.places.length q) ∧
        ∀ u q, u ≠ t → s.places[u]? = some q → A s.shared u q → A r.shared u q) :
    Annotated I A (s.turn f t) := by
  cases hp : s.places[t]? with
  | none => rwa [turn_none hp]
  | some p =>
    obtain ⟨hI, hA, hs, ho⟩ := hf p hp (h.place t p hp)
    have he : (s.turn f t).shared = (f t s.places.length s.shared p).shared := by
      rw [turn_some hp]
    refine ⟨he ▸ hI, fun u q hq => ?_⟩
    rw [place_turn hp] at hq
    rw [he]
    split_ifs at hq with h₁ h₂
    · cases hq
      rw [h₁]
      exact hA
    · rw [h₂]
      exact hs q hq
    · exact ho u q h₁ hq (h.place u q hq)

end Annotated

end Threads

end Java
