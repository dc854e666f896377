import ReversePolish.Binary64.Decimal
import ReversePolish.Proofs.Binary64.IntegralPower
import ReversePolish.Proofs.Binary64.Nearest

/-! # Decimal fractions read and read back

The short cuts for large exponents give what rounding the exact quotient would: a decimal fraction
is read as the double of one quotient of integers, whatever its exponent (`ofDecimal_eq_ofRatio`).
So it is read as the nearest double (`isNearest_ofDecimal`).

What the search for the fewest digits finds was tried before (`readsBack_of_neighbour?`), and if it
finds nothing the exact expansion is taken, which reads back as it loses nothing
(`readsBack_exactDecimal`).  So the decimal fraction that a double is written as is read as that
double (`ofDecimal_shortest`). -/

namespace ReversePolish.Binary64

attribute [local instance (high)] instPowNat

variable {c places : Nat}

theorem two_pow_le_ten_pow (k : Nat) : 2 ^ (3 * k) ≤ 10 ^ k := by
  rw [Nat.pow_mul]
  exact Nat.pow_le_pow_left (by decide) k

theorem nearestOnGrid_of_lt {n d : Nat} (h : 2 * n < d) : nearestOnGrid n d = 0 := by
  have hquotient : n / d = 0 := Nat.div_eq_of_lt (by omega)
  have hrest : n % d = n := Nat.mod_eq_of_lt (by omega)
  have hspacing : spacing 0 = 1 := rfl
  have hnearest : nearest n d = 0 := by
    rw [nearest, hrest, if_pos (.inl h), hquotient]
  rw [nearestOnGrid, hquotient, hspacing, Nat.mul_one, Nat.mul_one, hnearest]

/-- What is below half a unit is rounded to zero. -/
theorem ofRatio_of_lt (negative : Bool) {n d : Nat} (h : 2 * (n * unitsPerOne) < d) :
    ofRatio negative n d = zero negative := by
  have hzero := nearestOnGrid_of_lt h
  rw [ofRatio, ofUnits, dif_pos (by rw [hzero]; exact Nat.two_pow_pos _)]
  simp only [hzero, zero]

theorem ofRatio_of_vanishes (negative : Bool) (h : vanishes c places) :
    ofRatio negative c (10 ^ places) = zero negative := by
  have hplaces : c.log2 + 1080 < 3 * places := of_decide_eq_true h
  refine ofRatio_of_lt negative ?_
  calc 2 * (c * unitsPerOne) < 2 * (2 ^ (c.log2 + 1) * unitsPerOne) :=
        Nat.mul_lt_mul_of_pos_left
          (Nat.mul_lt_mul_of_pos_right Nat.lt_log2_self unitsPerOne_pos) Nat.two_pos
    _ = 2 ^ (c.log2 + 1 + unitPlaces + 1) := by
        rw [unitsPerOne, ← Nat.pow_add, Nat.mul_comm, ← Nat.pow_succ]
    _ ≤ 2 ^ (3 * places) := Nat.pow_le_pow_right Nat.two_pos (by simp only [unitPlaces]; omega)
    _ ≤ 10 ^ places := two_pow_le_ten_pow places

theorem ofRatio_of_overflow (negative : Bool) {exponent : Nat} (hc : c ≠ 0)
    (h : overflowExponent < exponent) :
    ofRatio negative (c * 10 ^ exponent) = infinite negative := by
  refine ofRatio_eq_infinite negative (k := 3 * exponent) ?_ ?_
  · rw [overflowExponent] at h
    omega
  · exact (two_pow_le_ten_pow exponent).trans (Nat.le_mul_of_pos_left _ (Nat.pos_of_ne_zero hc))

/-- **A decimal fraction is read as a quotient of integers**; where the power of ten is not taken,
the quotient is beyond the doubles or vanishes. -/
theorem ofDecimal_eq_ofRatio (negative : Bool) (c : Nat) (exponent : Int) :
    ofDecimal negative c exponent =
      ofRatio negative (c * 10 ^ exponent.toNat) (10 ^ (-exponent).toNat) := by
  cases exponent with
  | ofNat exponent =>
      have hpower : 10 ^ (-Int.ofNat exponent).toNat = 1 := by
        rw [Int.toNat_of_nonpos (by simp), Nat.pow_zero]
      rw [ofDecimal, hpower]
      split
      next hzero => rw [hzero, Nat.zero_mul, ofRatio_zero]
      split
      next hc hlarge => exact (ofRatio_of_overflow negative hc hlarge).symm
      · rfl
  | negSucc exponent =>
      have hpower : 10 ^ (Int.negSucc exponent).toNat = 1 := Nat.pow_zero 10
      rw [ofDecimal, Int.neg_negSucc, hpower, Nat.mul_one]
      split
      next hvanishes => exact (ofRatio_of_vanishes negative hvanishes).symm
      · rfl

theorem ofDecimal_zero (negative : Bool) (c : Nat) :
    ofDecimal negative c 0 = ofRatio negative c := by
  rw [ofDecimal_eq_ofRatio, Int.toNat_zero, Int.neg_zero, Int.toNat_zero, Nat.pow_zero, Nat.mul_one]

/-- **A decimal fraction is read as the nearest double.** -/
theorem isNearest_ofDecimal (negative : Bool) (c : Nat) (exponent : Int) :
    IsNearest ((signed negative c : ℚ) * 10 ^ exponent) (ofDecimal negative c exponent) := by
  have hnearest := isNearest_ofRatio negative (c * 10 ^ exponent.toNat)
    (Nat.pow_pos (n := (-exponent).toNat) (by decide : 0 < 10))
  have hvalue : (signed negative (c * 10 ^ exponent.toNat) : ℚ) / (10 ^ (-exponent).toNat : Nat) =
      (signed negative c : ℚ) * 10 ^ exponent := by
    have hsplit : (exponent.toNat : ℤ) - (-exponent).toNat = exponent :=
      Int.toNat_sub_toNat_neg exponent
    have hpower : (10 : ℚ) ^ exponent = 10 ^ exponent.toNat / 10 ^ (-exponent).toNat := by
      rw [← zpow_natCast, ← zpow_natCast, ← zpow_sub₀ (by norm_num), hsplit]
    rw [signed_mul, Int.cast_mul, hpower, mul_div_assoc]
    push_cast
    rfl
  rwa [hvalue, ← ofDecimal_eq_ofRatio] at hnearest

/-! ### The fewest digits -/

variable {units cut : Nat} {d : Decimal}

/-- Reading back is rounding to the magnitude. -/
theorem readsBack_iff (fits : Fits units) (d : Decimal) :
    readsBack units d ↔
      nearestOnGrid (d.coefficient * 10 ^ d.exponent.toNat * unitsPerOne)
        (10 ^ (-d.exponent).toNat) = units := by
  rw [readsBack, ofDecimal_eq_ofRatio, ofRatio]
  by_cases hlimit : nearestOnGrid (d.coefficient * 10 ^ d.exponent.toNat * unitsPerOne)
      (10 ^ (-d.exponent).toNat) < unitsLimit
  · rw [ofUnits, dif_pos hlimit]
    exact decide_eq_true_iff
  · rw [ofUnits, dif_neg hlimit]
    exact iff_of_false Bool.false_ne_true fun h => hlimit (h ▸ fits.1)

/-- What reads back does so under either sign. -/
theorem ofDecimal_of_readsBack (fits : Fits units) (h : readsBack units d) (negative : Bool) :
    ofDecimal negative d.coefficient d.exponent = finite negative units fits := by
  rw [ofDecimal_eq_ofRatio, ofRatio]
  exact ofUnits_eq_finite fits ((readsBack_iff fits d).1 h)

theorem expansion_mul_unitsPerOne (units : Nat) :
    expansion units * unitsPerOne = units * 10 ^ unitPlaces := by
  rw [expansion, unitsPerOne, Nat.mul_assoc, ← Nat.mul_pow]

/-- The exact expansion reads back. -/
theorem readsBack_exactDecimal (fits : Fits units) : readsBack units (exactDecimal units) := by
  have hpositive : (-(unitPlaces : Int)).toNat = 0 := Int.toNat_neg_natCast unitPlaces
  have hnegative : (- -(unitPlaces : Int)).toNat = unitPlaces := by
    rw [Int.neg_neg, Int.toNat_natCast]
  rw [readsBack_iff fits, exactDecimal, hpositive, hnegative, Nat.pow_zero, Nat.mul_one,
    expansion_mul_unitsPerOne]
  exact nearestOnGrid_of_dvd (Nat.pow_pos (by decide)) fits.2

/-- Of two neighbours that read back the nearer one is taken, which is one of the two. -/
theorem readsBack_of_neighbour? (h : neighbour? units cut = some d) : readsBack units d := by
  simp only [neighbour?] at h
  split at h
  next hbelow habove =>
    obtain rfl := Option.some.inj h
    rcases nearest_cases (expansion units) (10 ^ cut) with ⟨heq, -⟩ | ⟨heq, -⟩
    · rwa [heq]
    · rwa [heq]
  next hbelow habove =>
    obtain rfl := Option.some.inj h
    exact hbelow
  next hbelow habove =>
    obtain rfl := Option.some.inj h
    exact habove
  · cases h

theorem readsBack_shortest (fits : Fits units) : readsBack units (shortest units) := by
  rw [shortest]
  cases hfound : (List.range 17).findSome? fun n =>
      neighbour? units ((Nat.toDigits 10 (expansion units)).length - (n + 1)) with
  | none => exact readsBack_exactDecimal fits
  | some d =>
      obtain ⟨n, -, hn⟩ := List.exists_of_findSome?_eq_some hfound
      exact readsBack_of_neighbour? hn

/-- **The decimal fraction that a double is written as is read as that double.** -/
theorem ofDecimal_shortest (negative : Bool) (fits : Fits units) :
    ofDecimal negative (shortest units).coefficient (shortest units).exponent =
      finite negative units fits :=
  ofDecimal_of_readsBack fits (readsBack_shortest fits) negative

end ReversePolish.Binary64
