import Mathlib.Analysis.Complex.ExponentialBounds
import ReversePolish.Binary64.Exponential
import ReversePolish.Proofs.Enclosure.Series

/-! # What the exponential and the logarithm hold

The exponential of an argument of at most 1024 is the power of the exponential of a small one
(`holds_expEnclosure`).  The logarithm of a magnitude is that of a power of two and that of a factor
of at most two, which the area hyperbolic tangent gives (`holds_lnEnclosure`). -/

namespace ReversePolish.Enclosure

attribute [local instance (high)] instPowNat

open Binary64 (unitsPerOne unitPlaces)

variable {p : Nat} {a : Enclosure} {r : ℝ}

/-- Ten halvings of the argument are undone by ten squares. -/
theorem holds_expEnclosure (hp : 4 ≤ p) (ha : Holds p a r) (hr : |r| ≤ 1024) :
    Holds p (expEnclosure p a) (Real.exp r) := by
  have hsmall : |r / (1024 : Nat)| ≤ 1 := by
    rw [abs_div, Nat.abs_cast, div_le_one (by norm_num)]
    exact_mod_cast hr
  have hsquares := (holds_expSeries hp (ha.divide (by decide : 0 < 1024)) hsmall).squares 10
  have hvalue : Real.exp (r / (1024 : Nat)) ^ 2 ^ 10 = Real.exp r := by
    rw [← Real.exp_nat_mul]
    congr 1
    norm_num
    ring
  rw [hvalue] at hsquares
  exact hsquares.fromZero (Real.exp_pos r).le

theorem holds_ln2 (p : Nat) : Holds p (ln2 p) (Real.log 2) := by
  have hthird := holds_artanhSeries (holds_ratio p 1 (by decide : 0 < 3)) (by norm_num)
  have hvalue : ((2 : Int) : ℝ) * Real.artanh (((1 : Int) : ℝ) / (3 : Nat)) = Real.log 2 := by
    rw [Real.artanh_eq_half_log (by norm_num)]
    norm_num
    ring
  exact hvalue ▸ hthird.scale 2

theorem two_mul_artanh {x y : ℝ} (hx : 0 < x) (hy : 0 < y) :
    2 * Real.artanh ((x - y) / (x + y)) = Real.log (x / y) := by
  have hsum : 0 < x + y := add_pos hx hy
  have hlow : -1 ≤ (x - y) / (x + y) := by rw [le_div_iff₀ hsum]; linarith
  have hhigh : (x - y) / (x + y) ≤ 1 := by rw [div_le_one hsum]; linarith
  have hplus : 1 + (x - y) / (x + y) = 2 * x / (x + y) := by
    rw [eq_div_iff hsum.ne', add_mul, div_mul_cancel₀ _ hsum.ne']
    ring
  have hminus : 1 - (x - y) / (x + y) = 2 * y / (x + y) := by
    rw [eq_div_iff hsum.ne', sub_mul, div_mul_cancel₀ _ hsum.ne']
    ring
  rw [Real.artanh_eq_half_log ⟨hlow, hhigh⟩, hplus, hminus, div_div_div_cancel_right₀ hsum.ne',
    mul_div_mul_left _ _ two_ne_zero]
  ring

theorem holds_log_ratio (p : Nat) {m n : Nat} (hm : 0 < m) (hlow : m ≤ n) (hhigh : n ≤ 2 * m) :
    Holds p ((artanhSeries p (ratio p ((n : Int) - m) (n + m))).scale 2)
      (Real.log ((n : ℝ) / m)) := by
  have hm' : (0 : ℝ) < m := Nat.cast_pos.2 hm
  have hlow' : (m : ℝ) ≤ n := Nat.cast_le.2 hlow
  have hhigh' : (n : ℝ) ≤ 2 * m := by exact_mod_cast hhigh
  have hratio := holds_ratio p ((n : Int) - m) (Nat.add_pos_right n hm)
  have hvalue : (((n : Int) - m : Int) : ℝ) / (n + m : Nat) = ((n : ℝ) - m) / (n + m) := by
    push_cast
    rfl
  rw [hvalue] at hratio
  have hthird : ((n : ℝ) - m) / (n + m) ≤ 1 / 3 := by
    rw [div_le_iff₀ (by linarith)]
    linarith
  have hzero : 0 ≤ ((n : ℝ) - m) / (n + m) := div_nonneg (by linarith) (by linarith)
  rw [← two_mul_artanh (hm'.trans_le hlow') hm']
  exact_mod_cast (holds_artanhSeries hratio (by nlinarith)).scale 2

/-- A magnitude is a power of two times a factor below two. -/
theorem holds_lnEnclosure (p : Nat) {units : Nat} (hunits : units ≠ 0) :
    Holds p (lnEnclosure p units) (Real.log ((units : ℝ) / unitsPerOne)) := by
  have hpower := Nat.two_pow_pos units.log2
  have hnext : units ≤ 2 * 2 ^ units.log2 := by
    rw [← Nat.pow_succ']
    exact (Nat.lt_log2_self (n := units)).le
  have hfactor := holds_log_ratio p hpower (Nat.log2_self_le hunits) hnext
  have hexponent := (holds_ln2 p).scale ((units.log2 : Int) - unitPlaces)
  have hvalue : (((units.log2 : Int) - unitPlaces : Int) : ℝ) * Real.log 2 +
      Real.log ((units : ℝ) / (2 ^ units.log2 : Nat)) = Real.log ((units : ℝ) / unitsPerOne) := by
    have hunits' : (units : ℝ) ≠ 0 := Nat.cast_ne_zero.2 hunits
    have hlog (k : Nat) : Real.log ((2 ^ k : Nat) : ℝ) = k * Real.log 2 := by
      rw [← Real.log_pow]
      exact congrArg Real.log (Nat.cast_pow 2 k)
    rw [unitsPerOne, Real.log_div hunits' (Nat.cast_ne_zero.2 (Nat.two_pow_pos _).ne'),
      Real.log_div hunits' (Nat.cast_ne_zero.2 (Nat.two_pow_pos _).ne'), hlog, hlog]
    push_cast
    ring
  exact hvalue ▸ hexponent.add hfactor

end ReversePolish.Enclosure
