import Mathlib.Analysis.SpecialFunctions.Artanh
import Mathlib.Analysis.SpecialFunctions.Exponential
import Mathlib.Analysis.SpecialFunctions.Log.Deriv
import ReversePolish.Proofs.Enclosure.Basic

/-! # What the series hold

The tails of the series of the exponential function (`expTail`) and of the area hyperbolic tangent
(`artanhTail`) are again series, one step apart, and lie between zero and two on the arguments that
the series are summed for.  So the nested sums hold the functions (`holds_expSeries`,
`holds_artanhSeries`). -/

namespace ReversePolish.Enclosure

variable {p : Nat} {a : Enclosure} {r x z : ℝ}

/-! ### The exponential series -/

/-- `1 + x/(n+1) (1 + x/(n+2) (⋯))`. -/
noncomputable def expTail (x : ℝ) (n : Nat) : ℝ :=
  tsum fun j => x ^ j / ((n + 1).ascFactorial j : ℝ)

theorem summable_expTail (x : ℝ) (n : Nat) :
    Summable fun j => x ^ j / ((n + 1).ascFactorial j : ℝ) := by
  refine Summable.of_norm_bounded (Real.summable_pow_div_factorial |x|) fun j => ?_
  have hfactorial : (j.factorial : ℝ) ≤ (n + 1).ascFactorial j := by
    exact_mod_cast Nat.le_of_dvd (Nat.ascFactorial_pos _ _) (Nat.factorial_dvd_ascFactorial _ _)
  rw [norm_div, norm_pow, Real.norm_eq_abs, Real.norm_natCast]
  exact div_le_div_of_nonneg_left (by positivity) (by positivity) hfactorial

theorem expTail_zero (x : ℝ) : expTail x 0 = Real.exp x := by
  have hsum := NormedSpace.expSeries_div_hasSum_exp x
  rw [← Real.exp_eq_exp_ℝ] at hsum
  rw [← hsum.tsum_eq, expTail]
  simp only [Nat.zero_add, Nat.one_ascFactorial]

theorem expTail_step (x : ℝ) (n : Nat) :
    expTail x n = 1 + x * expTail x (n + 1) / (n + 1 : Nat) := by
  have hshift (j : Nat) : x ^ (j + 1) / ((n + 1).ascFactorial (j + 1) : ℝ) =
      x / (n + 1 : Nat) * (x ^ j / ((n + 2).ascFactorial j : ℝ)) := by
    have hasc : (n + 1).ascFactorial (j + 1) = (n + 1) * (n + 2).ascFactorial j := by
      rw [Nat.ascFactorial_succ, ← Nat.succ_ascFactorial]
    rw [hasc, Nat.cast_mul, pow_succ', mul_div_mul_comm]
  rw [expTail, (summable_expTail x n).tsum_eq_zero_add]
  simp only [hshift, tsum_mul_left]
  rw [expTail, pow_zero, Nat.ascFactorial_zero, Nat.cast_one, div_one, div_mul_eq_mul_div]

theorem abs_expTail_le (hx : |x| ≤ 1) {n : Nat} (hn : 1 ≤ n) : |expTail x n| ≤ 2 := by
  rw [← Real.norm_eq_abs, expTail]
  refine tsum_of_norm_bounded hasSum_geometric_two fun j => ?_
  have hasc : (2 : ℝ) ^ j ≤ (n + 1).ascFactorial j := by
    exact_mod_cast (Nat.pow_le_pow_left (by omega : 2 ≤ n + 1) j).trans
      (Nat.pow_succ_le_ascFactorial (n + 1) j)
  rw [norm_div, norm_pow, Real.norm_eq_abs, Real.norm_natCast, one_div, inv_pow, ← one_div]
  exact div_le_div₀ zero_le_one (pow_le_one₀ (abs_nonneg x) hx) (by positivity) hasc

theorem expTail_mem (hx : |x| ≤ 1) {n : Nat} (hn : 1 ≤ n) :
    0 ≤ expTail x n ∧ expTail x n ≤ 2 := by
  have hnext := abs_expTail_le hx (Nat.le_succ_of_le hn)
  have hterm : |x * expTail x (n + 1) / (n + 1 : Nat)| ≤ 1 := by
    have htwo : (2 : ℝ) ≤ (n + 1 : Nat) := by exact_mod_cast Nat.succ_le_succ hn
    rw [abs_div, abs_mul, Nat.abs_cast, div_le_one (by positivity)]
    calc |x| * |expTail x (n + 1)| ≤ 1 * 2 :=
          mul_le_mul hx hnext (abs_nonneg _) zero_le_one
      _ ≤ (n + 1 : Nat) := by linarith
  have hbounds := abs_le.1 hterm
  rw [expTail_step]
  constructor <;> linarith

theorem holds_expSeries (hp : 4 ≤ p) (ha : Holds p a r) (hr : |r| ≤ 1) :
    Holds p (expSeries p a) (Real.exp r) := by
  have htail := expTail_mem hr (Nat.div_pos hp (by decide) : 1 ≤ p / 4)
  rw [← expTail_zero]
  refine holds_nested (t := expTail r) (p / 4) (fun k c hc => ?_)
    (holds_upTo p htail.1 (by exact_mod_cast htail.2))
  rw [expTail_step]
  exact_mod_cast (holds_whole p 1).add ((ha.mul hc).divide k.succ_pos)

/-! ### The series of the area hyperbolic tangent -/

/-- `1/(2n+1) + z (1/(2n+3) + z (⋯))`. -/
noncomputable def artanhTail (z : ℝ) (n : Nat) : ℝ :=
  tsum fun j => z ^ j / ((2 * (n + j) + 1 : Nat) : ℝ)

theorem norm_artanhTerm_le (hz : 0 ≤ z) (hz' : z ≤ 1 / 2) (n j : Nat) :
    ‖z ^ j / ((2 * (n + j) + 1 : Nat) : ℝ)‖ ≤ (1 / 2) ^ j := by
  have hdenominator : (1 : ℝ) ≤ (2 * (n + j) + 1 : Nat) := by exact_mod_cast Nat.le_add_left 1 _
  rw [norm_div, norm_pow, Real.norm_of_nonneg hz, Real.norm_natCast]
  exact (div_le_self (by positivity) hdenominator).trans (pow_le_pow_left₀ hz hz' j)

theorem artanhTail_step (hz : 0 ≤ z) (hz' : z ≤ 1 / 2) (n : Nat) :
    artanhTail z n = 1 / ((2 * n + 1 : Nat) : ℝ) + z * artanhTail z (n + 1) := by
  have hsummable : Summable fun j => z ^ j / ((2 * (n + j) + 1 : Nat) : ℝ) :=
    Summable.of_norm_bounded hasSum_geometric_two.summable (norm_artanhTerm_le hz hz' n)
  have hshift (j : Nat) : z ^ (j + 1) / ((2 * (n + (j + 1)) + 1 : Nat) : ℝ) =
      z * (z ^ j / ((2 * (n + 1 + j) + 1 : Nat) : ℝ)) := by
    rw [pow_succ', mul_div_assoc, Nat.add_right_comm n 1 j, Nat.add_assoc n j 1]
  rw [artanhTail, hsummable.tsum_eq_zero_add]
  simp only [hshift, tsum_mul_left, pow_zero, Nat.add_zero]
  rfl

theorem artanhTail_mem (hz : 0 ≤ z) (hz' : z ≤ 1 / 2) (n : Nat) :
    0 ≤ artanhTail z n ∧ artanhTail z n ≤ 2 := by
  refine ⟨tsum_nonneg fun j => by positivity, ?_⟩
  exact (le_abs_self _).trans
    (tsum_of_norm_bounded hasSum_geometric_two (norm_artanhTerm_le hz hz' n))

theorem artanhTail_zero (hr : |r| < 1) : r * artanhTail (r ^ 2) 0 = Real.artanh r := by
  obtain ⟨hlow, hhigh⟩ := abs_lt.1 hr
  have hterm (j : Nat) : 1 / 2 * (2 * (1 / (2 * (j : ℝ) + 1)) * r ^ (2 * j + 1)) =
      r * ((r ^ 2) ^ j / ((2 * (0 + j) + 1 : Nat) : ℝ)) := by
    push_cast
    rw [pow_succ, pow_mul]
    ring
  have hsum := (Real.hasSum_log_sub_log_of_abs_lt_one hr).mul_left (1 / 2)
  simp only [hterm] at hsum
  rw [artanhTail, ← tsum_mul_left, hsum.tsum_eq, Real.artanh_eq_half_log ⟨hlow.le, hhigh.le⟩,
    Real.log_div (by linarith) (by linarith)]

theorem holds_artanhSeries (ha : Holds p a r) (hr : r ^ 2 ≤ 1 / 2) :
    Holds p (artanhSeries p a) (Real.artanh r) := by
  have hbelow : |r| < 1 := (sq_lt_one_iff_abs_lt_one r).1 (by linarith)
  have htail := artanhTail_mem (sq_nonneg r) hr (p / 3)
  rw [← artanhTail_zero hbelow]
  refine ha.mul (holds_nested (t := artanhTail (r ^ 2)) (p / 3) (fun k c hc => ?_)
    (holds_upTo p htail.1 (by exact_mod_cast htail.2)))
  have hratio := holds_ratio p 1 (Nat.succ_pos (2 * k))
  rw [Int.cast_one] at hratio
  have hsquare := ha.mul ha
  rw [← pow_two] at hsquare
  rw [artanhTail_step (sq_nonneg r) hr]
  exact hratio.add (hsquare.mul hc)

end ReversePolish.Enclosure
