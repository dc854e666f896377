import Mathlib.Data.Real.Basic
import Mathlib.Tactic.Linarith
import Mathlib.Tactic.Positivity
import Mathlib.Tactic.Ring
import ReversePolish.Enclosure.Series

/-! # What enclosures hold

`Holds p a r` says that the real `r` lies in the enclosure `a` at `p` places.  Every operation on
enclosures holds the value of the operation on reals, for it rounds its lower end down and its
upper end up (`cast_ediv_le`, `le_cast_ceilDiv`).  A series in nested form is followed from its tail
to its sum by the tails in between (`holds_nested`). -/

namespace ReversePolish.Enclosure

attribute [local instance (high)] instPowNat

/-- The number lies between the ends, at `p` places. -/
structure Holds (p : Nat) (a : Enclosure) (r : ℝ) : Prop where
  lower : (a.lo : ℝ) ≤ r * (2 : ℝ) ^ p
  upper : r * (2 : ℝ) ^ p ≤ a.hi

variable {p : Nat} {a b : Enclosure} {r s : ℝ}

theorem cast_scale (p : Nat) : (((2 : Int) ^ p : Int) : ℝ) = (2 : ℝ) ^ p := Int.cast_pow 2 p

theorem scale_pos (p : Nat) : (0 : ℝ) < (2 : ℝ) ^ p := by positivity

/-! ### Rounding down and up -/

theorem cast_ediv_le (i : Int) {d : Nat} (hd : 0 < d) : ((i / d : Int) : ℝ) ≤ i / d := by
  rw [le_div_iff₀ (Nat.cast_pos.2 hd)]
  exact_mod_cast Int.ediv_mul_le i (Int.natCast_ne_zero.2 (Nat.ne_of_gt hd))

theorem le_cast_ceilDiv (i : Int) {d : Nat} (hd : 0 < d) : (i : ℝ) / d ≤ (ceilDiv i d : Int) := by
  have hfloor := cast_ediv_le (-i) hd
  rw [Int.cast_neg, neg_div] at hfloor
  rw [ceilDiv, Int.cast_neg]
  linarith

theorem ceilDiv_le (i : Int) {d : Nat} (hd : 0 < d) : ceilDiv i d ≤ i / d + 1 := by
  have hlt := Int.lt_ediv_add_one_mul_self i (Int.natCast_pos.2 hd)
  have hle : -(i / d + 1) ≤ -i / (d : Int) := by
    refine Int.le_ediv_of_mul_le (Int.natCast_pos.2 hd) ?_
    rw [Int.neg_mul]
    exact Int.neg_le_neg hlt.le
  rw [ceilDiv]
  omega

/-! ### Exact values and quotients -/

theorem holds_whole (p : Nat) (i : Int) : Holds p (whole p i) i := by
  have hends : ((i * 2 ^ p : Int) : ℝ) = i * (2 : ℝ) ^ p := by rw [Int.cast_mul, cast_scale]
  exact ⟨hends.le, hends.ge⟩

theorem holds_ratio (p : Nat) (n : Int) {d : Nat} (hd : 0 < d) :
    Holds p (ratio p n d) ((n : ℝ) / d) := by
  have hvalue : (n : ℝ) / d * (2 : ℝ) ^ p = ((n * 2 ^ p : Int) : ℝ) / d := by
    rw [Int.cast_mul, cast_scale, div_mul_eq_mul_div]
  exact ⟨(cast_ediv_le _ hd).trans hvalue.ge, hvalue.le.trans (le_cast_ceilDiv _ hd)⟩

theorem holds_upTo (p : Nat) {k : Nat} (hlow : 0 ≤ r) (hhigh : r ≤ k) : Holds p (upTo p k) r := by
  refine ⟨?_, ?_⟩
  · rw [upTo, Int.cast_zero]
    positivity
  · rw [upTo, Int.cast_mul, Int.cast_natCast, cast_scale]
    exact mul_le_mul_of_nonneg_right hhigh (scale_pos p).le

/-! ### Operations -/

namespace Holds

/-- An enclosure that holds something has its ends in order. -/
theorem lo_le_hi (h : Holds p a r) : a.lo ≤ a.hi := Int.cast_le.1 (h.lower.trans h.upper)

theorem add (ha : Holds p a r) (hb : Holds p b s) : Holds p (a.add b) (r + s) := by
  refine ⟨?_, ?_⟩
  · rw [Enclosure.add, Int.cast_add, add_mul]
    exact add_le_add ha.lower hb.lower
  · rw [Enclosure.add, Int.cast_add, add_mul]
    exact add_le_add ha.upper hb.upper

theorem scale (ha : Holds p a r) (k : Int) : Holds p (a.scale k) (k * r) := by
  unfold Enclosure.scale
  split
  next hk =>
    have hk' : (0 : ℝ) ≤ k := Int.cast_nonneg hk
    refine ⟨?_, ?_⟩
    · rw [Int.cast_mul, mul_assoc]
      exact mul_le_mul_of_nonneg_left ha.lower hk'
    · rw [Int.cast_mul, mul_assoc]
      exact mul_le_mul_of_nonneg_left ha.upper hk'
  next hk =>
    have hk' : (k : ℝ) ≤ 0 := Int.cast_nonpos.2 (by omega)
    refine ⟨?_, ?_⟩
    · rw [Int.cast_mul, mul_assoc]
      exact mul_le_mul_of_nonpos_left ha.upper hk'
    · rw [Int.cast_mul, mul_assoc]
      exact mul_le_mul_of_nonpos_left ha.lower hk'

theorem divide (ha : Holds p a r) {d : Nat} (hd : 0 < d) : Holds p (a.divide d) (r / d) := by
  have hd' : (0 : ℝ) < d := Nat.cast_pos.2 hd
  refine ⟨?_, ?_⟩
  · refine (cast_ediv_le _ hd).trans ?_
    rw [div_mul_eq_mul_div]
    exact div_le_div_of_nonneg_right ha.lower hd'.le
  · refine le_trans ?_ (le_cast_ceilDiv _ hd)
    rw [div_mul_eq_mul_div]
    exact div_le_div_of_nonneg_right ha.upper hd'.le

/-- Nothing is lost below zero if there is nothing. -/
theorem fromZero (ha : Holds p a r) (hr : 0 ≤ r) : Holds p a.fromZero r := by
  have hzero : 0 ≤ r * (2 : ℝ) ^ p := mul_nonneg hr (scale_pos p).le
  refine ⟨?_, ?_⟩
  · rw [Enclosure.fromZero, Int.cast_max, Int.cast_zero]
    exact max_le hzero ha.lower
  · rw [Enclosure.fromZero, Int.cast_max]
    exact ha.upper.trans (le_max_right _ _)

end Holds

/-! ### Products -/

section Corners

variable {x y u v : ℝ}

theorem min_mul_le (hx : x ≤ r) (hy : r ≤ y) (u : ℝ) : min (x * u) (y * u) ≤ r * u := by
  rcases le_total 0 u with hu | hu
  · exact (min_le_left _ _).trans (mul_le_mul_of_nonneg_right hx hu)
  · exact (min_le_right _ _).trans (mul_le_mul_of_nonpos_right hy hu)

theorem le_max_mul (hx : x ≤ r) (hy : r ≤ y) (u : ℝ) : r * u ≤ max (x * u) (y * u) := by
  rcases le_total 0 u with hu | hu
  · exact (mul_le_mul_of_nonneg_right hy hu).trans (le_max_right _ _)
  · exact (mul_le_mul_of_nonpos_right hx hu).trans (le_max_left _ _)

/-- A product lies above the least corner. -/
theorem min_corners_le (hx : x ≤ r) (hy : r ≤ y) (hu : u ≤ s) (hv : s ≤ v) :
    min (min (x * u) (x * v)) (min (y * u) (y * v)) ≤ r * s := by
  have hside := min_mul_le hu hv r
  rw [mul_comm u, mul_comm v, mul_comm s] at hside
  refine le_trans (le_min ?_ ?_) hside
  · refine le_trans (le_min ?_ ?_) (min_mul_le hx hy u)
    · exact (min_le_left _ _).trans (min_le_left _ _)
    · exact (min_le_right _ _).trans (min_le_left _ _)
  · refine le_trans (le_min ?_ ?_) (min_mul_le hx hy v)
    · exact (min_le_left _ _).trans (min_le_right _ _)
    · exact (min_le_right _ _).trans (min_le_right _ _)

/-- A product lies below the greatest corner. -/
theorem le_max_corners (hx : x ≤ r) (hy : r ≤ y) (hu : u ≤ s) (hv : s ≤ v) :
    r * s ≤ max (max (x * u) (x * v)) (max (y * u) (y * v)) := by
  have hside := le_max_mul hu hv r
  rw [mul_comm u, mul_comm v, mul_comm s] at hside
  refine le_trans hside (max_le ?_ ?_)
  · refine le_trans (le_max_mul hx hy u) (max_le ?_ ?_)
    · exact (le_max_left _ _).trans (le_max_left _ _)
    · exact (le_max_left _ _).trans (le_max_right _ _)
  · refine le_trans (le_max_mul hx hy v) (max_le ?_ ?_)
    · exact (le_max_right _ _).trans (le_max_left _ _)
    · exact (le_max_right _ _).trans (le_max_right _ _)

end Corners

theorem Holds.mul (ha : Holds p a r) (hb : Holds p b s) : Holds p (a.mul p b) (r * s) := by
  have hpos : 0 < (2 ^ p : Nat) := Nat.two_pow_pos p
  have hscale : (((2 ^ p : Nat) : ℝ)) = (2 : ℝ) ^ p := Nat.cast_pow 2 p
  have hvalue : r * s * (2 : ℝ) ^ p = r * (2 : ℝ) ^ p * (s * (2 : ℝ) ^ p) / (2 ^ p : Nat) := by
    rw [hscale, eq_div_iff (scale_pos p).ne']
    ring
  have hlow := min_corners_le ha.lower ha.upper hb.lower hb.upper
  have hhigh := le_max_corners ha.lower ha.upper hb.lower hb.upper
  refine ⟨?_, ?_⟩
  · rw [hvalue]
    have hfloor : (a.mul p b).lo = min (min (a.lo * b.lo) (a.lo * b.hi))
        (min (a.hi * b.lo) (a.hi * b.hi)) / ((2 ^ p : Nat) : Int) := by
      rw [Int.natCast_pow]
      rfl
    rw [hfloor]
    refine (cast_ediv_le _ hpos).trans (div_le_div_of_nonneg_right ?_ (Nat.cast_nonneg _))
    simpa only [Int.cast_min, Int.cast_mul] using hlow
  · rw [hvalue]
    refine le_trans (div_le_div_of_nonneg_right ?_ (Nat.cast_nonneg _)) (le_cast_ceilDiv _ hpos)
    simpa only [Int.cast_max, Int.cast_mul] using hhigh

theorem Holds.squares (ha : Holds p a r) (n : Nat) : Holds p (squares p n a) (r ^ 2 ^ n) := by
  induction n generalizing a r with
  | zero => simpa [Enclosure.squares] using ha
  | succ n ih =>
      have hsquare := ih (ha.mul ha)
      rwa [← pow_two, ← pow_mul, ← pow_succ'] at hsquare

/-! ### Series -/

/-- **A nested series holds its sum, if its tail does and each step leads from a tail to the one
before it.** -/
theorem holds_nested {step : Nat → Enclosure → Enclosure} {t : Nat → ℝ} (n : Nat)
    (hstep : ∀ k c, Holds p c (t (k + 1)) → Holds p (step k c) (t k)) (ha : Holds p a (t n)) :
    Holds p (nested n step a) (t 0) := by
  induction n generalizing a with
  | zero => exact ha
  | succ n ih =>
      rw [nested, List.range_succ, List.foldr_append]
      exact ih (hstep n a ha)

end ReversePolish.Enclosure
