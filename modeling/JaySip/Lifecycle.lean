/-
  Objects with a life time, the lists of accesses that respect it, and reference counts that
  guard a group of objects.

  An object is initialised, used and destroyed.  It may be used and destroyed only while it is
  live, that is, between its initialisation and its destruction.
-/
import Mathlib.Data.BitVec
import Mathlib.Logic.Function.Basic
import Mathlib.Tactic.Common

/-- Where an object is in its life. -/
inductive Life where
  | fresh | live | destroyed
  deriving DecidableEq, Repr

/-- An access to an object. -/
inductive Access (ο : Type) where
  | init (o : ο)
  | use (o : ο)
  | destroy (o : ο)

namespace Access

variable {ο : Type} [DecidableEq ο] {l : ο → Life} {as bs : List (Access ο)}

/-- The lives of the objects after an access. -/
def next (l : ο → Life) : Access ο → ο → Life
  | init o => Function.update l o .live
  | use _ => l
  | destroy o => Function.update l o .destroyed

/-- The access finds its object live, if it does not initialise it. -/
def Allowed (l : ο → Life) : Access ο → Prop
  | init _ => True
  | use o | destroy o => l o = .live

/-- The lives after the accesses. -/
def lives (l : ο → Life) (as : List (Access ο)) : ο → Life := as.foldl next l

/-- Every access is allowed after the ones before it. -/
def Respects (l : ο → Life) : List (Access ο) → Prop
  | [] => True
  | a :: as => a.Allowed l ∧ Respects (a.next l) as

instance (l : ο → Life) : DecidablePred (Allowed l)
  | init _ => .isTrue trivial
  | use o | destroy o => inferInstanceAs (Decidable (l o = .live))

instance decidableRespects : ∀ (as : List (Access ο)) (l : ο → Life), Decidable (Respects l as)
  | [], _ => .isTrue trivial
  | a :: as, l =>
    have := decidableRespects as (a.next l)
    inferInstanceAs (Decidable (a.Allowed l ∧ Respects (a.next l) as))

/-! ## Lists of accesses -/

@[simp] theorem lives_nil : lives l [] = l := rfl

@[simp] theorem lives_cons {a : Access ο} : lives l (a :: as) = lives (a.next l) as := rfl

@[simp] theorem lives_append : lives l (as ++ bs) = lives (lives l as) bs := List.foldl_append ..

@[simp] theorem respects_nil : Respects l [] := trivial

@[simp] theorem respects_cons {a : Access ο} :
    Respects l (a :: as) ↔ a.Allowed l ∧ Respects (a.next l) as := Iff.rfl

theorem respects_append : Respects l (as ++ bs) ↔ Respects l as ∧ Respects (lives l as) bs := by
  induction as generalizing l with
  | nil => simp
  | cons a as ih => rw [List.cons_append, respects_cons, ih, respects_cons, lives_cons, and_assoc]

/-- Uses change no life. -/
theorem lives_uses {os : List ο} : lives l (os.map use) = l := by
  induction os with
  | nil => rfl
  | cons o os ih => exact ih

/-- Uses are allowed exactly if all the objects are live. -/
theorem respects_uses {os : List ο} : Respects l (os.map use) ↔ ∀ o ∈ os, l o = .live := by
  induction os with
  | nil => simp
  | cons o os ih =>
    rw [List.map_cons, respects_cons, List.forall_mem_cons]
    exact and_congr Iff.rfl ih

end Access

/-! ## Reference counts -/

/-- The `w`-bit counter stands at `n`, and the objects of the group are live exactly while `n`
    is positive. -/
structure RefCount {ο : Type} {w : ℕ} (G : ο → Prop) (l : ο → Life) (count : BitVec w) (n : ℤ) :
    Prop where
  count_eq : count.toInt = n
  live_iff : ∀ o, G o → (l o = .live ↔ 0 < n)

namespace RefCount

variable {ο : Type} {w : ℕ} {G : ο → Prop} {l l' : ο → Life} {count count' : BitVec w} {n n' : ℤ}

theorem count_eq_zero (h : RefCount G l count n) : count = 0#w ↔ n = 0 := by
  rw [← h.count_eq, ← BitVec.toInt_inj, BitVec.toInt_zero]

/-- One less is 0 exactly at 1. -/
theorem pred_eq_zero (hw : 1 < w) (h : RefCount G l count n) : count - 1#w = 0#w ↔ n = 1 := by
  rw [← h.count_eq, BitVec.sub_eq_iff_eq_add, BitVec.zero_add, ← BitVec.toInt_inj,
    BitVec.toInt_one_of_lt hw]

/-- Nothing is counted, and the lives of the group stay. -/
theorem keep (h : RefCount G l count n) (hc : count' = count) (hn : n' = n)
    (hl : ∀ o, G o → l' o = l o) : RefCount G l' count' n' where
  count_eq := by rw [hc, hn, h.count_eq]
  live_iff := by
    intro o ho
    rw [hl o ho, h.live_iff o ho, hn]

/-- Counting up: at 0 the group is initialised. -/
theorem acquire (hw : 1 < w) (h : RefCount G l count n) (hc : count' = count + 1#w)
    (hn : n' = n + 1) (hr : n' * 2 < 2 ^ w)
    (hl : ∀ o, G o → l' o = if count = 0#w then .live else l o) : RefCount G l' count' n' where
  count_eq := by
    have hlo := count.le_two_mul_toInt
    have hp : (0 : ℤ) < 2 ^ w := Int.pow_pos (by decide)
    rw [h.count_eq] at hlo
    rw [hc, BitVec.toInt_add, BitVec.toInt_one_of_lt hw, h.count_eq, ← hn]
    exact Int.bmod_eq_of_le_mul_two (by push_cast; omega) (by push_cast; omega)
  live_iff := by
    intro o ho
    rw [hl o ho]
    split_ifs with h0
    · rw [h.count_eq_zero] at h0
      exact iff_of_true rfl (by omega)
    · rw [h.count_eq_zero] at h0
      rw [h.live_iff o ho]
      omega

/-- Counting down: at 1 the group is destroyed. -/
theorem release (hw : 1 < w) (h : RefCount G l count n) (hc : count' = count - 1#w)
    (hn : n' = n - 1) (hr : -2 ^ w ≤ n' * 2)
    (hl : ∀ o, G o → l' o = if count - 1#w = 0#w then .destroyed else l o) :
    RefCount G l' count' n' where
  count_eq := by
    have hhi := count.two_mul_toInt_lt
    have hp : (0 : ℤ) < 2 ^ w := Int.pow_pos (by decide)
    rw [h.count_eq] at hhi
    rw [hc, BitVec.toInt_sub, BitVec.toInt_one_of_lt hw, h.count_eq, ← hn]
    exact Int.bmod_eq_of_le_mul_two (by push_cast; omega) (by push_cast; omega)
  live_iff := by
    intro o ho
    rw [hl o ho]
    split_ifs with h1
    · rw [h.pred_eq_zero hw] at h1
      exact iff_of_false (by simp) (by omega)
    · rw [h.pred_eq_zero hw] at h1
      rw [h.live_iff o ho]
      omega

/-- Where the counter is 1 the group is live. -/
theorem live_of_pred (hw : 1 < w) (h : RefCount G l count n) (h1 : count - 1#w = 0#w) {o : ο}
    (ho : G o) : l o = .live := by
  rw [h.pred_eq_zero hw] at h1
  exact (h.live_iff o ho).2 (by omega)

/-- Uses behind a guard that lets everything but 0 through respect the lives exactly if the
    counter is not negative. -/
theorem respects_guarded [DecidableEq ο] {os : List ο} (h : RefCount G l count n) (hne : os ≠ [])
    (hG : ∀ o ∈ os, G o) :
    Access.Respects l (if count = 0#w then [] else os.map .use) ↔ 0 ≤ n := by
  split_ifs with h0
  · rw [h.count_eq_zero] at h0
    exact iff_of_true trivial h0.ge
  · rw [h.count_eq_zero] at h0
    rw [Access.respects_uses]
    constructor
    · intro hall
      obtain ⟨o, ho⟩ := List.exists_mem_of_ne_nil os hne
      exact ((h.live_iff o (hG o ho)).1 (hall o ho)).le
    · intro hn o ho
      exact (h.live_iff o (hG o ho)).2 (lt_of_le_of_ne hn (Ne.symm h0))

end RefCount
