import ReversePolish.Proofs.Enclosure.Monotone
import ReversePolish.Proofs.Enclosure.Range
import ReversePolish.Proofs.Number.Value

/-! # The range of the exponential

The exponential of a double is beyond the doubles from `709.7827128933841` on, and not before
(`exp_lastInRange_lt`).  There the first attempt of `settle` already knows it, as the lower end of
its enclosure rises with the argument (`expEnds_firstBeyond`); so `exp` is infinite just where the
exponential is beyond the doubles (`hasRangeOf_exp`). -/

namespace ReversePolish.Binary64

attribute [local instance (high)] instPowNat

open Enclosure

/-- The significand of the greatest double whose exponential is in range. -/
def significandInRange : Nat := 6243314768165359

/-- The spacing of the doubles at that size, in units. -/
def spacingInRange : Nat := 2 ^ (1083 - fractionDigits)

/-- The greatest double whose exponential is in range, in units: `709.782712893384`. -/
def lastInRange : Nat := significandInRange * spacingInRange

/-- The next double, in units. -/
def firstBeyond : Nat := (significandInRange + 1) * spacingInRange

theorem succ_mul_le_of_dvd {m g u : Nat} (hg : g ∣ u) (h : m * g < u) : (m + 1) * g ≤ u := by
  obtain ⟨k, rfl⟩ := hg
  rw [Nat.mul_comm g] at h ⊢
  exact Nat.mul_le_mul_right g (Nat.lt_of_mul_lt_mul_right h)

theorem two_pow_le_lastInRange : 2 ^ (1083 : Nat) ≤ lastInRange :=
  calc 2 ^ (1083 : Nat) = 2 ^ fractionDigits * spacingInRange := by
        rw [spacingInRange, ← Nat.pow_add, Nat.add_sub_cancel' (by decide)]
    _ ≤ lastInRange := Nat.mul_le_mul_right _ (by decide)

/-- No double lies between the two. -/
theorem firstBeyond_le {units : Nat} (fits : Fits units) (h : lastInRange < units) :
    firstBeyond ≤ units := by
  have hlarge : 2 ^ (1083 : Nat) ≤ units := Nat.le_trans two_pow_le_lastInRange h.le
  have hlog : 1083 ≤ units.log2 := (Nat.le_log2 (Nat.ne_zero_of_lt h)).2 hlarge
  have hgrid : spacingInRange ∣ spacing units := Nat.pow_dvd_pow 2 (Nat.sub_le_sub_right hlog _)
  exact succ_mul_le_of_dvd (hgrid.trans fits.2) h

/-! ### The two exponentials -/

/-- The upper end of the exponential of the last double in range, at 128 places. -/
theorem expEnclosure_lastInRange :
    (expEnclosure 128 (ratio 128 lastInRange unitsPerOne)).hi <
      overflowBound * 2 ^ (128 : Nat) := by
  decide +kernel

/-- The lower end of the exponential of the double after it, in the first attempt. -/
theorem expPartial_firstBeyond :
    overflowBound * 2 ^ (1280 : Nat) ≤
      (squares 1280 10
        (expPartial 1280 24 (divide (ratio 1280 firstBeyond unitsPerOne) 1024))).lo := by
  decide +kernel

theorem exp_lastInRange_lt : Real.exp (inUnits lastInRange) < overflowBound := by
  have hargument : |inUnits lastInRange| ≤ 1024 := by
    have hlt := mul_two_pow_lt_two_pow (i := 1083 - fractionDigits) (k := 10 + unitPlaces)
      (by decide : significandInRange < 2 ^ (53 : Nat)) (by decide)
    rw [← spacingInRange, ← lastInRange, Nat.pow_add, ← unitsPerOne] at hlt
    have hle : lastInRange ≤ 1024 * unitsPerOne :=
      hlt.le.trans (Nat.mul_le_mul_right unitsPerOne (by decide))
    have hle' : (lastInRange : ℝ) ≤ 1024 * unitsPerOne := by exact_mod_cast hle
    rw [inUnits, Int.cast_natCast,
      abs_of_nonneg (div_nonneg (Nat.cast_nonneg _) real_unitsPerOne_pos.le),
      div_le_iff₀ real_unitsPerOne_pos]
    exact hle'
  have hupper := (holds_expEnclosure (p := 128) (by decide)
    (holds_ratio 128 lastInRange unitsPerOne_pos) hargument).upper
  refine lt_of_mul_lt_mul_right (hupper.trans_lt ?_) (scale_pos 128).le
  have hlt := Int.cast_lt (R := ℝ).2 expEnclosure_lastInRange
  rwa [Int.cast_mul, Int.cast_natCast, cast_scale] at hlt

/-- From the first double beyond on, the first attempt ends beyond the doubles. -/
theorem expEnds_firstBeyond {units : Nat} (h : firstBeyond ≤ units) :
    (expEnds 1280 (ratio 1280 units unitsPerOne)).1 = infinite false := by
  have hrises : Rises (ratio 1280 firstBeyond unitsPerOne) (ratio 1280 units unitsPerOne) :=
    .ratio (Int.natCast_nonneg _) (Int.ofNat_le.2 h) unitsPerOne_pos
  exact expEnds_fst_eq_infinite hrises.snd_nonneg hrises.second (ceilDiv_le _ unitsPerOne_pos)
    (expPartial_firstBeyond.trans (expPartial_lo_le hrises (by decide)))

/-- **The exponential of a finite double is infinite just where it is beyond the doubles.** -/
theorem hasRangeOf_exp (negative : Bool) (units : Nat) (fits : Fits units) :
    HasRangeOf (finite negative units fits).exp
      (Real.exp (inUnits (signed negative units))) := by
  have hvalue : inUnits (signed negative units) =
      ((signed negative units : Int) : ℝ) / (unitsPerOne : Nat) := rfl
  refine hasRangeOf_settle (fun p hp => ?_) fun hbound => ?_
  · exact brackets_expEnds hp (holds_ratio p _ unitsPerOne_pos)
  · have hlt := Real.exp_lt_exp.1 (exp_lastInRange_lt.trans_le hbound)
    rw [inUnits_lt_iff] at hlt
    cases negative with
    | true =>
        rw [signed, if_pos rfl] at hlt
        omega
    | false => exact expEnds_firstBeyond (firstBeyond_le fits (Int.ofNat_lt.1 hlt))

end ReversePolish.Binary64
