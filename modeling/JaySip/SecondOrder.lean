/-
  Stability of a second-order recursion `y (n + 2) = a * y (n + 1) + b * y n`.
-/
import Mathlib.Analysis.Complex.Norm
import Mathlib.Tactic.Linarith

namespace SecondOrder

variable {a b : ℝ}

/-- A real root of the characteristic equation. -/
theorem abs_root_lt_one (hb : |b| < 1) (ha : |a| < 1 - b) {x : ℝ} (hx : x ^ 2 = a * x + b) :
    |x| < 1 := by
  by_contra hge
  rw [not_lt] at hge
  -- outside the interval the square outgrows the linear part
  have hax : a * x ≤ |a| * |x| := by
    rw [← abs_mul]
    exact le_abs_self _
  have hlt : |a| * |x| < (1 - b) * |x| := mul_lt_mul_of_pos_right ha (by linarith)
  have hsq : |x| ^ 2 = a * x + b := by rw [sq_abs, hx]
  have hbx : -b * (|x| - 1) ≤ 1 * (|x| - 1) :=
    mul_le_mul_of_nonneg_right ((neg_le_abs b).trans hb.le) (by linarith)
  nlinarith

/-- The poles of a recursion whose coefficients lie in the stability triangle are inside the
    unit circle. -/
theorem norm_root_lt_one (hb : |b| < 1) (ha : |a| < 1 - b) {z : ℂ} (hz : z ^ 2 = a * z + b) :
    ‖z‖ < 1 := by
  have hre := congrArg Complex.re hz
  have him := congrArg Complex.im hz
  simp only [pow_two, Complex.mul_re, Complex.mul_im, Complex.add_re, Complex.add_im,
    Complex.ofReal_re, Complex.ofReal_im] at hre him
  have hsq : ‖z‖ ^ 2 = z.re * z.re + z.im * z.im := by
    rw [← Complex.normSq_eq_norm_sq, Complex.normSq_apply]
  rw [← abs_of_nonneg (norm_nonneg z), ← sq_lt_one_iff_abs_lt_one, hsq]
  by_cases hi : z.im = 0
  · have hx : |z.re| < 1 := by
      refine abs_root_lt_one hb ha ?_
      rw [hi] at hre
      linarith
    rw [hi, mul_zero, add_zero, ← pow_two]
    exact (sq_lt_one_iff_abs_lt_one _).2 hx
  · -- the other root is the conjugate, and `-b` the product of the two
    have hr : 2 * z.re = a := by
      refine mul_right_cancel₀ hi ?_
      linarith
    have hprod : z.re * z.re + z.im * z.im = -b := by
      rw [← hr] at hre
      linarith
    rw [hprod]
    exact (neg_le_abs b).trans_lt hb

end SecondOrder
