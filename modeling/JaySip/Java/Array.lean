/-
  Java arrays: checked accesses, `System.arraycopy`, and loops that count up.

  An array is the list of its elements; an access out of its bounds throws.
-/
import JaySip.Java.Exec

namespace Java

variable {α β ε σ : Type}

/-- `xs[i] = a`. -/
def arraySet (xs : List α) (i : ℤ) (a : α) : Except JException (List α) :=
  if 0 ≤ i ∧ i < xs.length then .ok (xs.set i.toNat a) else .error .indexOutOfBounds

/-- `System.arraycopy(src, srcPos, dest, destPos, length)`. -/
def arraycopy (src : List α) (srcPos : ℤ) (dest : List α) (destPos length : ℤ) :
    Except JException (List α) :=
  if 0 ≤ srcPos ∧ 0 ≤ destPos ∧ 0 ≤ length ∧ srcPos + length ≤ src.length ∧
      destPos + length ≤ dest.length then
    .ok (dest.take destPos.toNat ++ (src.drop srcPos.toNat).take length.toNat ++
      dest.drop (destPos + length).toNat)
  else .error .indexOutOfBounds

/-- `for (i = 0; i < n; i++) b = body(i, b)`. -/
def loop : ℕ → (ℕ → β → EStateM ε σ β) → β → EStateM ε σ β
  | 0, _, b => pure b
  | n + 1, body, b => loop n body b >>= body n

example : arraycopy [1, 2, 3] 1 [0, 0, 0, 0] 1 2 = .ok [0, 2, 3, 0] := by decide

/-! ## Accesses -/

theorem arrayGet_of_lt {xs : List α} {i : ℤ} (h₀ : 0 ≤ i) (h : i < xs.length) :
    ∃ a ∈ xs, arrayGet xs i = .ok a := by
  have hi : i.toNat < xs.length := by omega
  refine ⟨xs[i.toNat], List.getElem_mem hi, ?_⟩
  rw [arrayGet, if_neg (by omega), List.getElem?_eq_getElem hi]

theorem arraySet_of_lt {xs : List α} {i : ℤ} {a : α} (h₀ : 0 ≤ i) (h : i < xs.length) :
    arraySet xs i a = .ok (xs.set i.toNat a) := if_pos ⟨h₀, h⟩

theorem arraySet_of_ge {xs : List α} {i : ℤ} {a : α} (h : (xs.length : ℤ) ≤ i) :
    arraySet xs i a = .error .indexOutOfBounds := by
  refine if_neg ?_
  rintro ⟨-, hi⟩
  omega

theorem arraycopy_of_le {src dest : List α} {srcPos destPos length : ℤ} (h₀ : 0 ≤ srcPos)
    (h₁ : 0 ≤ destPos) (h₂ : 0 ≤ length) (hs : srcPos + length ≤ src.length)
    (hd : destPos + length ≤ dest.length) :
    ∃ r, arraycopy src srcPos dest destPos length = .ok r ∧ r.length = dest.length := by
  refine ⟨_, if_pos ⟨h₀, h₁, h₂, hs, hd⟩, ?_⟩
  simp only [List.length_append, List.length_take, List.length_drop]
  omega

/-- A copy needs room on both sides. -/
theorem arraycopy_eq_ok {src dest r : List α} {srcPos destPos length : ℤ} :
    arraycopy src srcPos dest destPos length = .ok r ↔
      (0 ≤ srcPos ∧ 0 ≤ destPos ∧ 0 ≤ length ∧ srcPos + length ≤ src.length ∧
        destPos + length ≤ dest.length) ∧
      r = dest.take destPos.toNat ++ (src.drop srcPos.toNat).take length.toNat ++
        dest.drop (destPos + length).toNat := by
  rw [arraycopy]
  split_ifs with h
  · rw [Except.ok.injEq, eq_comm]
    exact ⟨fun hr => ⟨h, hr⟩, fun hr => hr.2⟩
  · exact iff_of_false (by simp) fun hr => h hr.1

/-- What a copy to the front leaves there. -/
theorem arraycopy_take {src dest r : List α} {srcPos length : ℤ}
    (h : arraycopy src srcPos dest 0 length = .ok r) :
    r.take length.toNat = (src.drop srcPos.toNat).take length.toNat := by
  obtain ⟨⟨h₀, -, -, hs, -⟩, rfl⟩ := arraycopy_eq_ok.1 h
  rw [Int.toNat_zero, List.take_zero, List.nil_append, List.take_left']
  rw [List.length_take, List.length_drop]
  omega

/-! ## Loops -/

section
variable {n k : ℕ} {body : ℕ → β → EStateM ε σ β} {b : β} {s : σ} {E : ε → σ → Prop}

/-- The invariant `I i` holds before turn `i`. -/
theorem wp_loop (I : ℕ → β → σ → Prop) (h₀ : I 0 b s)
    (hs : ∀ i < n, ∀ b s, I i b s → wp (body i b) (I (i + 1)) E s) :
    wp (loop n body b) (I n) E s := by
  induction n with
  | zero => exact h₀
  | succ n ih =>
    rw [loop, wp_bind]
    refine wp_mono (ih fun i hi => hs i (by omega)) ?_ fun _ _ he => he
    intro b s hI
    exact hs n (by omega) b s hI

/-- A loop that reaches a turn that throws does not return. -/
theorem wp_loop_throws (I : ℕ → β → σ → Prop) (hk : k < n) (h₀ : I 0 b s)
    (hs : ∀ i < k, ∀ b s, I i b s → wp (body i b) (I (i + 1)) E s)
    (ht : ∀ b s, I k b s → wp (body k b) (fun _ _ => False) E s) :
    wp (loop n body b) (fun _ _ => False) E s := by
  induction n with
  | zero => exact absurd hk (Nat.not_lt_zero k)
  | succ n ih =>
    rw [loop, wp_bind]
    rcases Nat.lt_succ_iff_lt_or_eq.1 hk with hlt | rfl
    · exact wp_mono (ih hlt) (fun _ _ hf => hf.elim) fun _ _ he => he
    · exact wp_mono (wp_loop I h₀ hs) ht fun _ _ he => he

end

/-! ## Returning -/

/-- The method returns. -/
def Returns (x : EStateM ε σ α) (s : σ) : Prop := wp x (fun _ _ => True) (fun _ _ => False) s

theorem not_returns {x : EStateM ε σ α} {s : σ}
    (h : wp x (fun _ _ => False) (fun _ _ => True) s) : ¬ Returns x s := by
  unfold Returns wp at *
  cases hx : x s with
  | ok a s' => simp [hx] at h
  | error e s' => simp

end Java
