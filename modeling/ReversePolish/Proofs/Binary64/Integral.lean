import ReversePolish.Number
import ReversePolish.Proofs.Binary64.Grid

/-! # Integral doubles

A double with an integer value `i` is `i * unitsPerOne` units (`units?_of_toInt?`), and comparing
it with integers is comparing `i` with them.  The double nearest to an integer is integral again,
and its value is the rounding of the integer at one unit to the integer (`toInt?_ofInt`).

The last section follows that rounding past the ends of the cells.  `2^63` is a double, and from
there on the doubles are 2048 apart: the 1024 integers next to it round back to it. -/

namespace ReversePolish

attribute [local instance (high)] instPowNat

namespace Binary64

theorem unitsPerOne_pos : 0 < unitsPerOne := Nat.two_pow_pos _

@[simp] theorem signed_false (n : Nat) : signed false n = n := rfl

@[simp] theorem signed_true (n : Nat) : signed true n = -n := rfl

@[simp] theorem signed_zero (negative : Bool) : signed negative 0 = 0 := by
  cases negative <;> rfl

theorem signed_mul (negative : Bool) (n k : Nat) :
    signed negative (n * k) = signed negative n * k := by
  cases negative with
  | true => rw [signed, signed, if_pos rfl, if_pos rfl, Int.natCast_mul, Int.neg_mul]
  | false => exact Int.natCast_mul n k

@[simp] theorem natAbs_signed (negative : Bool) (n : Nat) : (signed negative n).natAbs = n := by
  cases negative with
  | true => exact (Int.natAbs_neg _).trans (Int.natAbs_natCast n)
  | false => exact Int.natAbs_natCast n

theorem signed_lt_zero {negative : Bool} {n : Nat} (h : signed negative n ≠ 0) :
    decide (signed negative n < 0) = negative := by
  cases negative with
  | true =>
      simp only [signed, if_true] at h ⊢
      exact decide_eq_true (by omega)
  | false => exact decide_eq_false (Int.not_lt.2 (Int.natCast_nonneg n))

/-! ### Integral values -/

theorem exists_of_toInt? {x : Binary64} {i : Int} (h : x.toInt? = some i) :
    ∃ negative units fits, x = finite negative units fits ∧ units % unitsPerOne = 0 ∧
      i = signed negative (units / unitsPerOne) := by
  cases x with
  | finite negative units fits =>
      simp only [toInt?] at h
      split at h
      next hunits => exact ⟨negative, units, fits, rfl, hunits, (Option.some.inj h).symm⟩
      · cases h
  | _ => cases h

theorem units?_of_toInt? {x : Binary64} {i : Int} (h : x.toInt? = some i) :
    x.units? = some (i * unitsPerOne) := by
  obtain ⟨negative, units, fits, rfl, hunits, rfl⟩ := exists_of_toInt? h
  rw [units?, ← signed_mul, Nat.div_mul_cancel (Nat.dvd_of_mod_eq_zero hunits)]

theorem isFinite_of_toInt? {x : Binary64} {i : Int} (h : x.toInt? = some i) : x.isFinite := by
  obtain ⟨negative, units, fits, rfl, -, -⟩ := exists_of_toInt? h
  rfl

theorem isIntegral_iff {x : Binary64} : x.isIntegral ↔ ∃ i, x.toInt? = some i := by
  rw [isIntegral, Option.isSome_iff_exists]

theorem toInt?_finite (negative : Bool) (k : Nat) (fits : Fits (k * unitsPerOne)) :
    (finite negative (k * unitsPerOne) fits).toInt? = some (signed negative k) := by
  rw [toInt?, if_pos (Nat.mul_mod_left _ _), Nat.mul_div_cancel _ unitsPerOne_pos]

/-! ### The double nearest to an integer -/

theorem nearestOnGrid_mul_unitsPerOne (k : Nat) :
    nearestOnGrid (k * unitsPerOne) 1 = nearestOnGrid k 1 * unitsPerOne :=
  nearestOnGrid_mul_two_pow k unitPlaces

theorem ofRatio_eq_finite {negative : Bool} {n : Nat} (h : (ofRatio negative n).isFinite) :
    ∃ fits, ofRatio negative n = finite negative (nearestOnGrid n 1 * unitsPerOne) fits := by
  unfold ofRatio ofUnits at h ⊢
  split at h
  next hlimit =>
    rw [dif_pos hlimit]
    rw [nearestOnGrid_mul_unitsPerOne] at hlimit
    exact ⟨⟨hlimit, nearestOnGrid_mul_unitsPerOne _ ▸ spacing_dvd_nearestOnGrid _ 1⟩,
      by simp only [nearestOnGrid_mul_unitsPerOne]⟩
  · cases h

theorem ofInt_eq_finite {i : Int} (h : (ofInt i).isFinite) :
    ∃ fits, ofInt i = finite (i < 0) (nearestOnGrid i.natAbs 1 * unitsPerOne) fits :=
  ofRatio_eq_finite h

theorem eq_infinite_of_not_finite {negative : Bool} {n d : Nat}
    (h : ¬ (ofRatio negative n d).isFinite) : ofRatio negative n d = infinite negative := by
  unfold ofRatio ofUnits at h ⊢
  split at h
  · exact absurd rfl h
  next hlimit => rw [dif_neg hlimit]

theorem toInt?_ofRatio {negative : Bool} {n : Nat} (h : (ofRatio negative n).isFinite) :
    (ofRatio negative n).toInt? = some (signed negative (nearestOnGrid n 1)) := by
  obtain ⟨fits, hfinite⟩ := ofRatio_eq_finite h
  rw [hfinite, toInt?_finite]

theorem toInt?_ofInt {i : Int} (h : (ofInt i).isFinite) :
    (ofInt i).toInt? = some (signed (i < 0) (nearestOnGrid i.natAbs 1)) := toInt?_ofRatio h

theorem isFinite_ofRatio {n : Nat} (h : n ≤ 2 ^ (126 : Nat)) (negative : Bool) (d : Nat) :
    (ofRatio negative n d).isFinite := by
  have hlimit := two_mul_units_lt_unitsLimit h
  have hquotient := Nat.div_le_self (n * unitsPerOne) d
  exact isFinite_ofUnits (by omega)

theorem isFinite_ofInt_of_le {i : Int} (h : i.natAbs ≤ 2 ^ (126 : Nat)) : (ofInt i).isFinite :=
  isFinite_ofRatio h _ 1

theorem isFinite_ofRatio_of_grid {n : Nat} (h : nearestOnGrid n 1 ≤ 2 ^ (63 : Nat))
    (negative : Bool) : (ofRatio negative n).isFinite := by
  unfold ofRatio ofUnits
  have hlimit : nearestOnGrid (n * unitsPerOne) 1 < unitsLimit := by
    have hbound := two_mul_units_lt_unitsLimit (Nat.le_trans h (by decide))
    rw [nearestOnGrid_mul_unitsPerOne]
    omega
  rw [dif_pos hlimit]
  rfl

theorem isFinite_ofInt {i : Int} (h : nearestOnGrid i.natAbs 1 ≤ 2 ^ (63 : Nat)) :
    (ofInt i).isFinite := isFinite_ofRatio_of_grid h _

/-- The magnitude of a double lies on the grid. -/
theorem nearestOnGrid_of_fits {units : Nat} (fits : Fits units) :
    nearestOnGrid units 1 = units := by
  have := nearestOnGrid_of_dvd (d := 1) (by decide) fits.2
  rwa [Nat.mul_one] at this

/-- A magnitude under a sign is rounded as the integer that it is, but for the sign of a zero. -/
theorem ofInt_signed {negative : Bool} {c : Nat} (h : signed negative c ≠ 0) :
    ofInt (signed negative c) = ofRatio negative c := by
  rw [ofInt, natAbs_signed, signed_lt_zero h]

/-- A double with an integer value is the double of that integer, but for the sign of a zero. -/
theorem ofInt_of_toInt? {x : Binary64} {i : Int} (h : x.toInt? = some i) (hi : i ≠ 0) :
    ofInt i = x := by
  obtain ⟨negative, units, fits, rfl, hunits, rfl⟩ := exists_of_toInt? h
  have hgrid := nearestOnGrid_of_fits fits
  have hmul : units / unitsPerOne * unitsPerOne = units :=
    Nat.div_mul_cancel (Nat.dvd_of_mod_eq_zero hunits)
  rw [ofInt, ofRatio, natAbs_signed, signed_lt_zero hi, hmul]
  exact ofUnits_eq_finite fits hgrid

theorem nearestOnGrid_of_toInt? {x : Binary64} {i : Int} (h : x.toInt? = some i) :
    nearestOnGrid i.natAbs 1 = i.natAbs := by
  obtain ⟨negative, units, fits, rfl, hunits, rfl⟩ := exists_of_toInt? h
  rw [natAbs_signed]
  refine Nat.eq_of_mul_eq_mul_right unitsPerOne_pos ?_
  rw [← nearestOnGrid_mul_unitsPerOne, Nat.div_mul_cancel (Nat.dvd_of_mod_eq_zero hunits),
    nearestOnGrid_of_fits fits]

/-! ### Rounding at the ends of the cells -/

theorem le_nearestOnGrid_cell {k : Nat} (h : 2 ^ (63 : Nat) ≤ k) :
    2 ^ (63 : Nat) ≤ nearestOnGrid k 1 :=
  le_nearestOnGrid (by decide) (by decide +kernel) (by rwa [Nat.mul_one])

/-- From `2^63` to `2^64` the grid is 2048 apart. -/
theorem nearestOnGrid_beyond_cell {k : Nat} (hlow : 2 ^ (63 : Nat) ≤ k)
    (hhigh : k < 2 ^ (64 : Nat)) : nearestOnGrid k 1 = nearest k 2048 * 2048 := by
  have hlog : k.log2 = 63 := (Nat.log2_eq_iff (by omega)).2 ⟨hlow, hhigh⟩
  have hspacing : spacing k = 2048 := by
    rw [spacing, hlog]
    rfl
  rw [nearestOnGrid, Nat.div_one, hspacing]

/-- The next 1024 integers round back to `2^63`, the last of them because its half is even. -/
theorem nearestOnGrid_just_beyond {k : Nat} (hlow : 2 ^ (63 : Nat) ≤ k)
    (hhigh : k ≤ 2 ^ (63 : Nat) + 1024) : nearestOnGrid k 1 = 2 ^ (63 : Nat) := by
  rw [nearestOnGrid_beyond_cell hlow (by omega)]
  unfold nearest
  dsimp only
  split <;> omega

/-- Those after them do not. -/
theorem lt_nearestOnGrid_beyond {k : Nat} (h : 2 ^ (63 : Nat) + 1024 < k) :
    2 ^ (63 : Nat) < nearestOnGrid k 1 := by
  rcases Nat.lt_or_ge k (2 ^ (63 : Nat) + 2048) with hlt | hge
  · rw [nearestOnGrid_beyond_cell (by omega) (by omega)]
    unfold nearest
    dsimp only
    split <;> omega
  · have hgrid : 2 ^ (63 : Nat) + 2048 ≤ nearestOnGrid k 1 :=
      le_nearestOnGrid (by decide) (by decide +kernel) (by rwa [Nat.mul_one])
    omega

end Binary64

/-! ### Comparing with integers -/

namespace Number

open Binary64

theorem le_iff {a b : Number} {p q : Int} (ha : a.place? = some (.point p))
    (hb : b.place? = some (.point q)) : a.le b ↔ p ≤ q := by
  simp [le, lt, eq, ha, hb, Place.before, Int.le_iff_lt_or_eq]

theorem place?_double {x : Binary64} {v : Int} (h : x.units? = some v) :
    (double x).place? = some (.point v) := by
  cases x with
  | finite negative units fits =>
      cases h
      rfl
  | _ => cases h

theorem integer_le_double {x : Binary64} {v : Int} (h : x.units? = some v) (a : Int) :
    (integer a).le (double x) ↔ a * unitsPerOne ≤ v := le_iff rfl (place?_double h)

theorem double_le_integer {x : Binary64} {v : Int} (h : x.units? = some v) (a : Int) :
    (double x).le (integer a) ↔ v ≤ a * unitsPerOne := le_iff (place?_double h) rfl

/-- The test on a double is the test on its value. -/
theorem betweenCells_iff {x : Binary64} {i : Int} (h : x.toInt? = some i) :
    betweenCells x ↔ cellMin ≤ i ∧ i ≤ cellMax := by
  have hunits := units?_of_toInt? h
  have hpos : (0 : Int) < unitsPerOne := Int.ofNat_lt.2 unitsPerOne_pos
  rw [betweenCells, Bool.and_eq_true, integer_le_double hunits, double_le_integer hunits]
  exact and_congr (Int.mul_le_mul_right hpos) (Int.mul_le_mul_right hpos)

theorem truncate_double {x : Binary64} {i : Int} (h : x.toInt? = some i) :
    (double x).truncate = .ok i := by
  obtain ⟨negative, units, fits, rfl, -, rfl⟩ := exists_of_toInt? h
  rfl

end Number

end ReversePolish
