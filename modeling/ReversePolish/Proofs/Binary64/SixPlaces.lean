import ReversePolish.Binary64.Decimal
import ReversePolish.Proofs.Binary64.Decimal

/-! # Six places read back

With six places a double is shown as a count of millionths, and the count is read back as a double
(`sixPlaces`).  After that nothing changes any more (`sixPlaces_sixPlaces`), because one of the two
grids is the finer.  Below `2^33` neighbouring doubles are less than a millionth apart, and the
double that a count is read as has that count again (`millionths_ofMillionths`).  From `2^33` on
they are more than a millionth apart, and the double that a count was taken of is the one that the
count is read as (`ofMillionths_millionths`). -/

namespace ReversePolish

attribute [local instance (high)] instPowNat

/-! ### The nearest integer -/

/-- The integer nearest to a rational, of two the even one. -/
structure IsNearestInt (q : ℚ) (k : ℤ) : Prop where
  near : |q - k| ≤ 1 / 2
  even : |q - k| = 1 / 2 → Even k

namespace Binary64

theorem abs_sub_quotient (k n : Nat) {d : Nat} (hd : 0 < d) :
    |(k : ℚ) / 1 - n / d| = Nat.dist (k * d) n / d := by
  have hd' : (0 : ℚ) < d := Nat.cast_pos.2 hd
  rw [cast_dist, ← abs_of_pos hd', ← abs_div, abs_of_pos hd', Nat.cast_mul, sub_div, div_one,
    mul_div_cancel_right₀ _ hd'.ne']

theorem isNearestInt_nearest (negative : Bool) (n : Nat) {d : Nat} (hd : 0 < d) :
    IsNearestInt ((signed negative n : ℚ) / d) (signed negative (nearest n d)) := by
  have hd' : (0 : ℚ) < d := Nat.cast_pos.2 hd
  obtain ⟨hnear, heven⟩ := dist_nearest_le_half (n := n) hd
  have hdist : |(signed negative n : ℚ) / d - signed negative (nearest n d)| =
      Nat.dist (nearest n d * d) n / d := by
    rw [← abs_sub_quotient _ _ hd, abs_sub_comm, ← div_one (signed negative (nearest n d) : ℚ),
      abs_signed_sub]
  constructor
  · rw [hdist, div_le_iff₀ hd', one_div_mul_eq_div, le_div_iff₀' (by norm_num)]
    exact_mod_cast hnear
  · rw [hdist, div_eq_iff hd'.ne', one_div_mul_eq_div, eq_div_iff (by norm_num), mul_comm]
    intro htie
    have hmod := heven (by exact_mod_cast htie)
    have hdvd : (2 : ℤ) ∣ nearest n d := Int.natCast_dvd_natCast.2 (Nat.dvd_of_mod_eq_zero hmod)
    cases negative with
    | false => exact even_iff_two_dvd.2 hdvd
    | true => exact even_iff_two_dvd.2 (Int.dvd_neg.2 hdvd)

/-! ### Millionths -/

variable {u c : Nat}

theorem spacing_le_of_lt {j : Nat} (h : u < 2 ^ j) : spacing u ≤ 2 ^ (j - 1 - fractionDigits) := by
  refine Nat.pow_le_pow_right (by decide) (Nat.sub_le_sub_right ?_ _)
  rcases Nat.eq_zero_or_pos u with rfl | hu
  · exact Nat.zero_le _
  · exact Nat.le_sub_one_of_lt ((Nat.log2_lt (Nat.ne_of_gt hu)).2 h)

theorem two_mul_dist_nearestOnGrid_le {n d : Nat} (hd : 0 < d) :
    2 * Nat.dist (nearestOnGrid n d * d) n ≤ d * spacing (n / d) := by
  rw [nearestOnGrid_mul]
  exact (dist_nearest_le_half (Nat.mul_pos hd (spacing_pos _))).1

/-- The double that a count of millionths is read as, in units. -/
def ofMillionths (count : Nat) : Nat := nearestOnGrid (count * unitsPerOne) (10 ^ shownPlaces)

/-- The units in `2^33`. -/
def wideUnits : Nat := 2 ^ (33 : Nat) * unitsPerOne

/-- The millionths in `2^33`. -/
def wideCount : Nat := 2 ^ (33 : Nat) * 10 ^ shownPlaces

theorem wideUnits_mul : wideUnits * 10 ^ shownPlaces = wideCount * unitsPerOne := by
  rw [wideUnits, wideCount, Nat.mul_right_comm]

theorem spacing_dvd_wideUnits : spacing wideUnits ∣ wideUnits := by
  rw [wideUnits, unitsPerOne]
  exact spacing_dvd_mul _ (by decide)

theorem ten_pow_pos : 0 < 10 ^ shownPlaces := Nat.pow_pos (by decide)

theorem wideCount_le_millionths (h : wideUnits ≤ u) : wideCount ≤ millionths u := by
  refine le_nearest_of_le unitsPerOne_pos ?_
  rw [← wideUnits_mul]
  exact Nat.mul_le_mul_right _ h

theorem millionths_le_wideCount (h : u ≤ wideUnits) : millionths u ≤ wideCount := by
  refine nearest_le_of_le unitsPerOne_pos ?_
  rw [← wideUnits_mul]
  exact Nat.mul_le_mul_right _ h

theorem wideUnits_le_ofMillionths (h : wideCount ≤ c) : wideUnits ≤ ofMillionths c := by
  refine le_nearestOnGrid ten_pow_pos spacing_dvd_wideUnits ?_
  rw [wideUnits_mul]
  exact Nat.mul_le_mul_right _ h

theorem ofMillionths_le_wideUnits (h : c ≤ wideCount) : ofMillionths c ≤ wideUnits := by
  refine nearestOnGrid_le_of_le ten_pow_pos spacing_dvd_wideUnits ?_
  rw [wideUnits_mul]
  exact Nat.mul_le_mul_right _ h

theorem spacing_dvd_ofMillionths (c : Nat) : spacing (ofMillionths c) ∣ ofMillionths c :=
  spacing_dvd_nearestOnGrid _ _

/-- Below `2^33` a count is read as a double that is less than half a millionth away. -/
theorem dist_ofMillionths_lt (h : c < wideCount) :
    2 * Nat.dist (ofMillionths c * 10 ^ shownPlaces) (c * unitsPerOne) < unitsPerOne := by
  have hquotient : c * unitsPerOne / 10 ^ shownPlaces < 2 ^ (33 + unitPlaces) := by
    rw [Nat.div_lt_iff_lt_mul ten_pow_pos, Nat.pow_add, ← unitsPerOne, Nat.mul_right_comm]
    exact Nat.mul_lt_mul_of_pos_right h unitsPerOne_pos
  calc 2 * Nat.dist (ofMillionths c * 10 ^ shownPlaces) (c * unitsPerOne)
      ≤ 10 ^ shownPlaces * spacing (c * unitsPerOne / 10 ^ shownPlaces) :=
        two_mul_dist_nearestOnGrid_le ten_pow_pos
    _ ≤ 10 ^ shownPlaces * 2 ^ (33 + unitPlaces - 1 - fractionDigits) :=
        Nat.mul_le_mul_left _ (spacing_le_of_lt hquotient)
    _ < unitsPerOne :=
        mul_two_pow_lt_two_pow (by decide : 10 ^ shownPlaces < 2 ^ (20 : Nat)) (by decide)

/-- **Below `2^33` a count of millionths is the count of the double that it is read as.** -/
theorem millionths_ofMillionths (h : c < wideCount) : millionths (ofMillionths c) = c := by
  refine nearest_eq_of_dist_lt ?_
  rw [Nat.dist_comm]
  exact dist_ofMillionths_lt h

/-- The double that a count is read as is a millionth away at most from the one it was taken of. -/
theorem dist_ofMillionths_millionths_le (hu : spacing u ∣ u) :
    Nat.dist (ofMillionths (millionths u)) u * 10 ^ shownPlaces ≤ unitsPerOne := by
  have hread : Nat.dist (ofMillionths (millionths u) * 10 ^ shownPlaces)
      (millionths u * unitsPerOne) ≤ Nat.dist (u * 10 ^ shownPlaces) (millionths u * unitsPerOne) :=
    dist_nearestOnGrid_le ten_pow_pos hu
  have hshown : 2 * Nat.dist (millionths u * unitsPerOne) (u * 10 ^ shownPlaces) ≤ unitsPerOne :=
    (dist_nearest_le_half unitsPerOne_pos).1
  have htriangle := Nat.dist.triangle_inequality (ofMillionths (millionths u) * 10 ^ shownPlaces)
    (millionths u * unitsPerOne) (u * 10 ^ shownPlaces)
  rw [Nat.dist_comm (u * _)] at hread
  rw [← Nat.dist_mul_right]
  omega

/-- **From `2^33` on a double is the one that its count of millionths is read as.** -/
theorem ofMillionths_millionths (hu : spacing u ∣ u) (h : wideUnits ≤ u) :
    ofMillionths (millionths u) = u := by
  have hlow : wideUnits ≤ ofMillionths (millionths u) :=
    wideUnits_le_ofMillionths (wideCount_le_millionths h)
  have hgrid : spacing wideUnits ∣ Nat.dist (ofMillionths (millionths u)) u := by
    have hleft := (spacing_dvd_spacing hlow).trans (spacing_dvd_ofMillionths _)
    have hright := (spacing_dvd_spacing h).trans hu
    exact Nat.dvd_add (Nat.dvd_sub hleft hright) (Nat.dvd_sub hright hleft)
  have hstep : unitsPerOne < spacing wideUnits * 10 ^ shownPlaces := by decide +kernel
  -- the two lie on one grid, and less than a step of it apart
  have hnear : Nat.dist (ofMillionths (millionths u)) u < spacing wideUnits :=
    Nat.lt_of_mul_lt_mul_right (Nat.lt_of_le_of_lt (dist_ofMillionths_millionths_le hu) hstep)
  exact Nat.eq_of_dist_eq_zero (Nat.eq_zero_of_dvd_of_lt hgrid hnear)

/-- Reading a count changes its double no more, whichever grid is finer. -/
theorem ofMillionths_millionths_ofMillionths (c : Nat) :
    ofMillionths (millionths (ofMillionths c)) = ofMillionths c := by
  rcases Nat.lt_or_ge c wideCount with hlt | hge
  · rw [millionths_ofMillionths hlt]
  · exact ofMillionths_millionths (spacing_dvd_ofMillionths c) (wideUnits_le_ofMillionths hge)

theorem fits_ofMillionths (hu : Fits u) : Fits (ofMillionths (millionths u)) := by
  refine ⟨?_, spacing_dvd_ofMillionths _⟩
  rcases Nat.le_total wideUnits u with hwide | hnarrow
  · rw [ofMillionths_millionths hu.2 hwide]
    exact hu.1
  · have hread := ofMillionths_le_wideUnits (millionths_le_wideCount hnarrow)
    refine Nat.lt_of_le_of_lt hread ?_
    rw [wideUnits, unitsPerOne, unitsLimit]
    exact mul_two_pow_lt_two_pow (by decide : 2 ^ (33 : Nat) < 2 ^ (34 : Nat)) (by decide)

/-! ### Doubles read back from six places -/

/-- The double that is read back from the six places of a double. -/
def sixPlaces : Binary64 → Binary64
  | finite negative units _ => ofRatio negative (millionths units) (10 ^ shownPlaces)
  | x => x

theorem sixPlaces_finite (negative : Bool) (hu : Fits u) :
    (finite negative u hu).sixPlaces =
      finite negative (ofMillionths (millionths u)) (fits_ofMillionths hu) := by
  rw [sixPlaces, ofRatio]
  exact ofUnits_eq_finite (fits_ofMillionths hu) rfl

theorem sixPlaces_eq_ofDecimal (negative : Bool) (hu : Fits u) :
    (finite negative u hu).sixPlaces = ofDecimal negative (millionths u) (-shownPlaces) := by
  have hpositive : (-(shownPlaces : Int)).toNat = 0 := Int.toNat_neg_natCast shownPlaces
  have hnegative : (- -(shownPlaces : Int)).toNat = shownPlaces := by
    rw [Int.neg_neg, Int.toNat_natCast]
  rw [ofDecimal_eq_ofRatio, hpositive, hnegative, Nat.pow_zero, Nat.mul_one, sixPlaces]

/-- **A double that was read back from six places is read back as itself.** -/
theorem sixPlaces_sixPlaces (x : Binary64) : x.sixPlaces.sixPlaces = x.sixPlaces := by
  cases x with
  | finite negative units fits =>
      simp only [sixPlaces_finite, ofMillionths_millionths_ofMillionths]
  | infinite negative => rfl
  | nan => rfl

/-- **It is the double nearest to the value rounded to six places.** -/
theorem isNearest_sixPlaces {x : Binary64} {v : ℚ} (h : x.toRat? = some v) :
    ∃ k, IsNearestInt (v * 10 ^ 6) k ∧ IsNearest (k / 10 ^ 6) x.sixPlaces := by
  obtain ⟨negative, units, fits, rfl, rfl⟩ := exists_of_toRat? h
  refine ⟨signed negative (millionths units), ?_, ?_⟩
  · have hcount := isNearestInt_nearest negative (units * 10 ^ shownPlaces) unitsPerOne_pos
    rw [signed_mul] at hcount
    push_cast at hcount
    rwa [mul_div_right_comm] at hcount
  · have hread := isNearest_ofRatio negative (millionths units) ten_pow_pos
    push_cast at hread
    exact hread

end Binary64

end ReversePolish
