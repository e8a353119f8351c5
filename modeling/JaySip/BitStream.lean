/-
  Bit streams: the low bits of numbers, the lowest bit first, and buffers that bits are
  appended to and taken from.
-/
import Mathlib.Data.List.Basic
import Mathlib.Data.Nat.Bitwise
import Mathlib.Tactic.Common

namespace BitStream

/-- The `w` low bits of a number, the lowest first. -/
def bits (w n : ℕ) : List Bool := (List.range w).map n.testBit

variable {w m n x y : ℕ}

@[simp] theorem bits_zero : bits 0 n = [] := rfl

@[simp] theorem length_bits : (bits w n).length = w := by
  rw [bits, List.length_map, List.length_range]

/-- The low bits, and those above them. -/
theorem bits_add : bits (m + n) x = bits m x ++ bits n (x >>> m) := by
  rw [bits, bits, bits, List.range_add, List.map_append, List.map_map]
  refine congrArg _ (List.map_congr_left fun i _ => ?_)
  rw [Function.comp_apply, Nat.testBit_shiftRight]

/-- A mask keeps the low bits. -/
theorem bits_and_mask : bits w (x &&& (2 ^ w - 1)) = bits w x := by
  refine List.map_congr_left fun i hi => ?_
  rw [Nat.testBit_and, Nat.testBit_two_pow_sub_one, decide_eq_true (List.mem_range.1 hi),
    Bool.and_true]

/-- Numbers of `w` bits are told by their bits. -/
theorem eq_of_bits (hx : x < 2 ^ w) (hy : y < 2 ^ w) (h : bits w x = bits w y) : x = y := by
  refine Nat.eq_of_testBit_eq fun i => ?_
  by_cases hi : i < w
  · exact List.map_inj_left.1 h i (List.mem_range.2 hi)
  · have hle : 2 ^ w ≤ 2 ^ i := Nat.pow_le_pow_right (by decide) (Nat.le_of_not_lt hi)
    rw [Nat.testBit_lt_two_pow (hx.trans_le hle), Nat.testBit_lt_two_pow (hy.trans_le hle)]

/-! ## Buffers -/

/-- Bits put above the `n` bits of a buffer are appended. -/
theorem bits_append (hx : x < 2 ^ n) : bits (n + m) (x ||| y <<< n) = bits n x ++ bits m y := by
  have hlow : bits n (x ||| y <<< n) = bits n x := by
    refine List.map_congr_left fun i hi => ?_
    have hi' : ¬ n ≤ i := Nat.not_le.2 (List.mem_range.1 hi)
    rw [Nat.testBit_or, Nat.testBit_shiftLeft, decide_eq_false hi', Bool.false_and, Bool.or_false]
  have hhigh : (x ||| y <<< n) >>> n = y := by
    refine Nat.eq_of_testBit_eq fun i => ?_
    have hx' : x < 2 ^ (n + i) :=
      hx.trans_le (Nat.pow_le_pow_right (by decide) (Nat.le_add_right n i))
    rw [Nat.testBit_shiftRight, Nat.testBit_or, Nat.testBit_lt_two_pow hx', Bool.false_or,
      Nat.testBit_shiftLeft, decide_eq_true (Nat.le_add_right n i), Bool.true_and,
      Nat.add_sub_cancel_left]
  rw [bits_add, hlow, hhigh]

theorem append_lt (hx : x < 2 ^ n) (hy : y < 2 ^ m) : x ||| y <<< n < 2 ^ (n + m) := by
  have hx' := hx.trans_le (Nat.pow_le_pow_right (n := 2) (by decide) (Nat.le_add_right n m))
  refine Nat.or_lt_two_pow hx' ?_
  rw [Nat.shiftLeft_eq, Nat.add_comm, Nat.pow_add]
  exact Nat.mul_lt_mul_of_pos_right hy (Nat.two_pow_pos n)

theorem take_lt (hx : x < 2 ^ (m + n)) : x >>> m < 2 ^ n := by
  rw [Nat.shiftRight_eq_div_pow, Nat.div_lt_iff_lt_mul (Nat.two_pow_pos m), ← Nat.pow_add,
    Nat.add_comm n m]
  exact hx

/-! ## Words -/

/-- Words of one width whose bits begin a stream of such words begin its words. -/
theorem prefix_of_bits (hw : 0 < w) {xs ys : List ℕ} {rest : List Bool} (hx : ∀ x ∈ xs, x < 2 ^ w)
    (hy : ∀ y ∈ ys, y < 2 ^ w) (h : xs.flatMap (bits w) ++ rest = ys.flatMap (bits w)) :
    ∃ zs, ys = xs ++ zs ∧ rest = zs.flatMap (bits w) := by
  induction xs generalizing ys with
  | nil => exact ⟨ys, rfl, h⟩
  | cons x xs ih =>
    cases ys with
    | nil =>
      have hl := congrArg List.length h
      rw [List.flatMap_cons, List.length_append, List.length_append, length_bits] at hl
      simp only [List.flatMap_nil, List.length_nil] at hl
      omega
    | cons y ys =>
      rw [List.flatMap_cons, List.flatMap_cons, List.append_assoc] at h
      obtain ⟨hxy, hrest⟩ := List.append_inj h (by rw [length_bits, length_bits])
      obtain rfl := eq_of_bits (hx x List.mem_cons_self) (hy y List.mem_cons_self) hxy
      obtain ⟨zs, rfl, hz⟩ := ih (fun a ha => hx a (List.mem_cons_of_mem x ha))
        (fun a ha => hy a (List.mem_cons_of_mem x ha)) hrest
      exact ⟨zs, rfl, hz⟩

theorem length_flatMap_bits (xs : List ℕ) : (xs.flatMap (bits w)).length = w * xs.length := by
  induction xs with
  | nil => rfl
  | cons x xs ih =>
    rw [List.flatMap_cons, List.length_append, ih, length_bits, List.length_cons, Nat.mul_add,
      Nat.mul_one, Nat.add_comm]

end BitStream
