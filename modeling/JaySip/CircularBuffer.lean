/-
  Circular buffers that nobody tests for room: the slot under the reading position holds the
  last value written there, after any number of laps.
-/
import Mathlib.Logic.Function.Basic
import Mathlib.Tactic.Common

/-- A circular buffer: a write overwrites the slot at `tail`, a read gets the one at `head`. -/
structure CircularBuffer (β : Type) where
  slot : ℕ → β
  head : ℕ
  tail : ℕ

namespace CircularBuffer

variable {β : Type} {K base : ℕ} {init : ℕ → β} {xs : List β}

/-- A write into a buffer of `K` slots. -/
def write (K : ℕ) (x : β) (B : CircularBuffer β) : CircularBuffer β where
  slot := Function.update B.slot B.tail x
  head := B.head
  tail := (B.tail + 1) % K

/-- What a read leaves of a buffer of `K` slots. -/
def read (K : ℕ) (B : CircularBuffer β) : CircularBuffer β where
  slot := B.slot
  head := (B.head + 1) % K
  tail := B.tail

/-! ## The last value in a slot -/

/-- The last of `w` values written that is in the slot of value `j`. -/
def lastIn (K j w : ℕ) : ℕ := j + K * ((w - 1 - j) / K)

theorem lastIn_mod (K j w : ℕ) : lastIn K j w % K = j % K := Nat.add_mul_mod_self_left ..

theorem lastIn_lt {j w : ℕ} (h : j < w) : lastIn K j w < w := by
  have := Nat.mul_div_le (w - 1 - j) K
  unfold lastIn
  omega

/-- It is not yet overwritten. -/
theorem le_lastIn_add (hK : 0 < K) {j w : ℕ} (h : j < w) : w ≤ lastIn K j w + K := by
  have hmod := Nat.mod_lt (w - 1 - j) hK
  have hdiv := Nat.div_add_mod (w - 1 - j) K
  unfold lastIn
  omega

/-- A read that is less than a lap behind is on time. -/
theorem lastIn_of_lt {j w : ℕ} (h : w - 1 - j < K) : lastIn K j w = j := by
  rw [lastIn, Nat.div_eq_of_lt h, Nat.mul_zero, Nat.add_zero]

/-- Reads that fall behind get later values. -/
theorem lastIn_lt_lastIn {i j v w : ℕ} (hij : i < j) (h : v - 1 - i ≤ w - 1 - j) :
    lastIn K i v < lastIn K j w := by
  have hdiv : (v - 1 - i) / K ≤ (w - 1 - j) / K := Nat.div_le_div_right h
  have hmul := Nat.mul_le_mul_left K hdiv
  unfold lastIn
  omega

/-! ## The slots after a number of writes -/

/-- The buffer of `K` slots that held `init`, after the writes `xs` from `base` on: the last
    `K` writes are in their slots, and the others are as they were. -/
structure Wrote (K base : ℕ) (init : ℕ → β) (xs : List β) (B : CircularBuffer β) : Prop where
  tail : B.tail = (base + xs.length) % K
  slot : ∀ n x, xs[n]? = some x → xs.length ≤ n + K → B.slot ((base + n) % K) = x
  fresh : ∀ n, xs.length ≤ n → n < K → B.slot ((base + n) % K) = init ((base + n) % K)

namespace Wrote

variable {B : CircularBuffer β}

theorem start (h : base < K) {head : ℕ} :
    (CircularBuffer.mk init head base).Wrote K base init [] := by
  refine ⟨(Nat.mod_eq_of_lt h).symm, ?_, fun _ _ _ => rfl⟩
  intro n x hn
  cases hn

/-- Two numbers less than a lap apart have different slots. -/
theorem mod_ne {m n : ℕ} (h : m < n) (hn : n < m + K) : (base + m) % K ≠ (base + n) % K := by
  intro he
  have hzero := Nat.sub_mod_eq_zero_of_mod_eq he.symm
  have hd : base + n - (base + m) = n - m := by omega
  rw [hd, Nat.mod_eq_of_lt (by omega)] at hzero
  omega

theorem write (h : B.Wrote K base init xs) (x : β) :
    (B.write K x).Wrote K base init (xs ++ [x]) := by
  have hslot : ∀ n, n < xs.length → xs.length < n + K →
      (B.write K x).slot ((base + n) % K) = B.slot ((base + n) % K) := by
    intro n hn hK
    refine Function.update_of_ne ?_ _ _
    rw [h.tail]
    exact mod_ne hn hK
  refine ⟨?_, ?_, ?_⟩
  · rw [List.length_append, List.length_singleton, ← Nat.add_assoc, CircularBuffer.write, h.tail,
      Nat.mod_add_mod]
  · intro n y hn hK
    rw [List.length_append, List.length_singleton] at hK
    by_cases hlt : n < xs.length
    · rw [List.getElem?_append_left hlt] at hn
      rw [hslot n hlt (by omega)]
      exact h.slot n y hn (by omega)
    · have hle : n < (xs ++ [x]).length := (List.getElem?_eq_some_iff.1 hn).1
      rw [List.length_append, List.length_singleton] at hle
      obtain rfl : n = xs.length := by omega
      rw [List.getElem?_concat_length] at hn
      cases hn
      rw [CircularBuffer.write, h.tail]
      exact Function.update_self ..
  · intro n hn hK
    rw [List.length_append, List.length_singleton] at hn
    refine (Function.update_of_ne ?_ _ _).trans (h.fresh n (by omega) hK)
    rw [h.tail]
    exact (mod_ne (by omega) (by omega)).symm

theorem read (h : B.Wrote K base init xs) : (B.read K).Wrote K base init xs :=
  ⟨h.tail, h.slot, h.fresh⟩

/-- What a read from the slot of value `j` gets, when that value has been written. -/
theorem slot_of_lt (h : B.Wrote K base init xs) (hK : 0 < K) {j : ℕ} (hj : j < xs.length) :
    xs[lastIn K j xs.length]? = some (B.slot ((base + j) % K)) := by
  have hlt := lastIn_lt (K := K) hj
  have hx : xs[lastIn K j xs.length]? = some (xs[lastIn K j xs.length]) :=
    List.getElem?_eq_getElem hlt
  have hs := h.slot _ _ hx (le_lastIn_add hK hj)
  rw [hx, ← hs, Nat.add_mod, lastIn_mod, ← Nat.add_mod]

/-- What a read from any slot gets: what was there before the writes, or one of those writes
    that go there. -/
theorem slot_cases (h : B.Wrote K base init xs) {d : ℕ} (hd : d < K) :
    B.slot ((base + d) % K) = init ((base + d) % K) ∨
      ∃ n, n % K = d ∧ xs[n]? = some (B.slot ((base + d) % K)) := by
  by_cases hx : d < xs.length
  · refine Or.inr ⟨lastIn K d xs.length, ?_, h.slot_of_lt (Nat.zero_lt_of_lt hd) hx⟩
    rw [lastIn_mod, Nat.mod_eq_of_lt hd]
  · exact Or.inl (h.fresh d (by omega) hd)

end Wrote

end CircularBuffer
