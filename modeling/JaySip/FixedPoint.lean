/-
  C's fixed-width integers as integers: checked `int` arithmetic, casts to `int16_t`, and
  saturation.
-/
import Mathlib.Algebra.Order.Ring.Abs
import Mathlib.Algebra.Order.Ring.Int
import Mathlib.Tactic.Common

namespace FixedPoint

/-- A value of type `int16_t`. -/
def IsInt16 (n : ℤ) : Prop := -32768 ≤ n ∧ n ≤ 32767

/-- The value of an expression of type `int`, `none` where it overflows. -/
def int32 (n : ℤ) : Option ℤ := if -2147483648 ≤ n ∧ n ≤ 2147483647 then some n else none

/-- The cast to `int16_t`. -/
def int16 (n : ℤ) : ℤ := n.bmod 65536

/-- `(m * n) >> k`. -/
def mulShift (m n : ℤ) (k : ℕ) : Option ℤ := do
  let wd ← int32 (m * n)
  return wd >>> k

/-- The nearest value between `lo` and `hi`. -/
def clamp (lo hi n : ℤ) : ℤ := if n < lo then lo else if hi < n then hi else n

/-- The nearest value of type `int16_t`. -/
def saturate (n : ℤ) : ℤ := clamp (-32768) 32767 n

/-- The nearest value of 15 bits. -/
def saturate15 (n : ℤ) : ℤ := clamp (-16384) 16383 n

/-- `saturated_add16`. -/
def satAdd (m n : ℤ) : ℤ := saturate (m + n)

/-- `saturated_sub16`. -/
def satSub (m n : ℤ) : ℤ := saturate (m - n)

/-- `((m ^ n) & 0x8000) != 0` of values of type `int16_t`. -/
def signsDiffer (m n : ℤ) : Bool := decide (m < 0) != decide (n < 0)

instance : DecidablePred IsInt16 := fun n =>
  inferInstanceAs (Decidable (-32768 ≤ n ∧ n ≤ 32767))

/-! ## Ranges -/

theorem int32_of_range {n : ℤ} (h : -2147483648 ≤ n ∧ n ≤ 2147483647) : int32 n = some n := if_pos h

theorem int16_of_range {n : ℤ} (h : IsInt16 n) : int16 n = n :=
  Int.bmod_eq_of_le (by have := h.1; omega) (by have := h.2; omega)

theorem isInt16_int16 (n : ℤ) : IsInt16 (int16 n) := by
  have hlo := Int.le_bmod (x := n) (m := 65536) (by decide)
  have hhi := Int.bmod_lt (x := n) (m := 65536) (by decide)
  unfold int16 IsInt16
  omega

theorem clamp_bounds {lo hi : ℤ} (h : lo ≤ hi) (n : ℤ) :
    lo ≤ clamp lo hi n ∧ clamp lo hi n ≤ hi := by
  unfold clamp
  split_ifs <;> omega

theorem clamp_of_range {lo hi n : ℤ} (h : lo ≤ n ∧ n ≤ hi) : clamp lo hi n = n := by
  unfold clamp
  split_ifs <;> omega

theorem isInt16_saturate (n : ℤ) : IsInt16 (saturate n) := clamp_bounds (by decide) n

theorem isInt16_satAdd (m n : ℤ) : IsInt16 (satAdd m n) := isInt16_saturate _

/-! ## Products -/

/-- A product of bounded factors is bounded. -/
theorem mul_bounds {m n M N : ℤ} (hm : -M ≤ m ∧ m ≤ M) (hn : -N ≤ n ∧ n ≤ N) :
    -(M * N) ≤ m * n ∧ m * n ≤ M * N := by
  have h : |m * n| ≤ M * N := by
    rw [abs_mul]
    exact mul_le_mul (abs_le.2 hm) (abs_le.2 hn) (abs_nonneg n) (by omega)
  exact abs_le.1 h

/-- A product of two values of type `int16_t` does not overflow. -/
theorem mulShift_of_range {m n : ℤ} (hm : IsInt16 m) (hn : IsInt16 n) (k : ℕ) :
    mulShift m n k = some ((m * n) >>> k) := by
  have h := mul_bounds (M := 32768) (N := 32768) ⟨hm.1, by have := hm.2; omega⟩
    ⟨hn.1, by have := hn.2; omega⟩
  rw [mulShift, int32_of_range (by omega)]
  rfl

/-- `>>` divides, rounding down. -/
theorem shiftRight_bounds {n : ℤ} (k : ℕ) :
    (n >>> k) * 2 ^ k ≤ n ∧ n < (n >>> k) * 2 ^ k + 2 ^ k := by
  have hp : (0 : ℤ) < 2 ^ k := Int.pow_pos (by decide)
  rw [Int.shiftRight_eq_div_pow, Nat.cast_pow, Nat.cast_ofNat]
  have hdiv := Int.emod_add_mul_ediv n (2 ^ k)
  have hlo := Int.emod_nonneg n hp.ne'
  have hhi := Int.emod_lt_of_pos n hp
  rw [mul_comm] at hdiv
  omega

end FixedPoint
