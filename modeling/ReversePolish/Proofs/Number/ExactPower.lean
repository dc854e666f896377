import ReversePolish.Proofs.Binary64.IntegralPower
import ReversePolish.Proofs.Outcomes

/-! # Exact powers

A power of two integers is multiplied out if its exponent is not negative and its rounded value is
within a cell (`MultipliesOut`), and then alone it is an integer (`pow_eq_integer_iff`).  The
rounded value is all that this test sees: base and exponent are rounded before the power is.  Even
so it keeps out every exact power from `2^63` on (`MultipliesOut.natAbs_pow_lt`).  What is
multiplied out fits a cell (`MultipliesOut.fits`), and it is no long product: a base other than zero
and one, of either sign, has an exponent of at most 62 (`MultipliesOut.exponent_le`). -/

namespace ReversePolish

attribute [local instance (high)] instPowNat

namespace Number

open Binary64

/-- A rounded integer is within a cell if it is below `2^63`. -/
theorem withinCell_ofRatio_iff (negative : Bool) (k : Nat) :
    withinCell (ofRatio negative k) ↔ nearestOnGrid k 1 < 2 ^ (63 : Nat) := by
  rw [withinCell, abs_ofRatio]
  by_cases hfinite : (ofRatio false k).isFinite
  · have hunits := units?_of_toInt? (toInt?_ofRatio hfinite)
    rw [double_le_integer hunits, Int.mul_le_mul_right (Int.ofNat_lt.2 unitsPerOne_pos), cellMax]
    simp only [signed, Bool.false_eq_true, if_false]
    omega
  · refine iff_of_false ?_ fun hlt => hfinite (isFinite_ofRatio_of_grid (Nat.le_of_lt hlt) false)
    rw [eq_infinite_of_not_finite hfinite]
    decide

theorem minus_one_pow (n : Nat) : (-1 : Int) ^ n = if n % 2 = 0 then 1 else -1 := by
  have hpow : (-1 : Int) ^ n = (-1) ^ (n % 2) := by
    conv => lhs; rw [← Nat.div_add_mod n 2, Int.pow_add, Int.pow_mul]
    rw [show (-1 : Int) ^ 2 = 1 from rfl, Int.one_pow, Int.one_mul]
  rcases Nat.mod_two_eq_zero_or_one n with h | h <;> rw [hpow, h] <;> rfl

/-- An integral power is the power. -/
theorem integralPower_eq (base : Int) (exponent : Nat) :
    integralPower base exponent = base ^ exponent := by
  unfold integralPower
  split
  next h =>
    rcases h with rfl | rfl
    · exact (Int.one_pow).symm
    · exact (Int.pow_zero base).symm
  next h =>
    rw [not_or] at h
    split
    next hzero => rw [hzero, Int.zero_pow h.2]
    split
    next hminus => rw [hminus, minus_one_pow]
    · rfl

theorem asDouble_integer {i : Int} {x : Binary64} (h : (integer i).asDouble = .ok x) :
    (ofInt i).isFinite ∧ x = ofInt i := by
  simp only [asDouble] at h
  split at h
  next hfinite => exact ⟨hfinite, (Except.ok.inj h).symm⟩
  · cases h

theorem checked_ok {finite ordered : Bool} {value x : Binary64}
    (h : checked finite ordered value = .ok x) : x = value := by
  unfold checked at h
  split at h
  · cases h
  · split at h
    · cases h
    · exact (Except.ok.inj h).symm

theorem power_integer {a b : Int} {x : Binary64} (h : power (integer a) (integer b) = .ok x) :
    (ofInt a).isFinite ∧ (ofInt b).isFinite ∧ x = (ofInt a).pow (ofInt b) := by
  obtain ⟨y, ha, h⟩ := exists_of_bind_eq_ok h
  obtain ⟨z, hb, h⟩ := exists_of_bind_eq_ok h
  obtain ⟨hbase, hy⟩ := asDouble_integer ha
  obtain ⟨hexponent, hz⟩ := asDouble_integer hb
  rw [← hy, ← hz]
  exact ⟨hy ▸ hbase, hz ▸ hexponent, checked_ok h⟩

/-! ### Multiplying out -/

/-- A negative integer, as the calculator compares it. -/
theorem integer_lt_zero {i : Int} : (integer i).lt (integer 0) ↔ i < 0 := by
  have hone : (0 : Int) < unitsPerOne := Int.ofNat_lt.2 unitsPerOne_pos
  simp only [lt, place?, Place.ofInt, Place.before, decide_eq_true_eq]
  exact Int.mul_lt_mul_right hone

variable {a b n : Int}

/-- The power is multiplied out. -/
structure MultipliesOut (base exponent : Int) : Prop where
  nonneg : 0 ≤ exponent
  within : ∃ x, power (integer base) (integer exponent) = .ok x ∧ withinCell x

theorem MultipliesOut.pow_eq (h : MultipliesOut a b) :
    pow (integer a) (integer b) = .ok (integer (a ^ b.toNat)) := by
  obtain ⟨x, hpower, hcell⟩ := h.within
  have hsign : ¬ ((integer a).isZero && (integer b).lt (integer 0)) := by
    rw [Bool.and_eq_true, integer_lt_zero]
    exact fun hb => Int.not_lt.2 h.nonneg hb.2
  have hexact : (decide (0 ≤ b) && withinCell x) = true := by simp [h.nonneg, hcell]
  rw [pow, if_neg hsign, hpower]
  change (if decide (0 ≤ b) && withinCell x then Except.ok (integer (integralPower a b.toNat))
    else Except.ok (double x)) = _
  rw [if_pos hexact, integralPower_eq]

/-- **A power is an integer just if it is multiplied out.** -/
theorem pow_eq_integer_iff :
    pow (integer a) (integer b) = .ok (integer n) ↔ MultipliesOut a b ∧ n = a ^ b.toNat := by
  constructor
  · intro h
    unfold pow at h
    split at h
    · cases h
    · obtain ⟨x, hpower, h⟩ := exists_of_bind_eq_ok h
      dsimp only at h
      split at h
      next hexact =>
        rw [Bool.and_eq_true, decide_eq_true_eq] at hexact
        cases h
        exact ⟨⟨hexact.1, x, hpower, hexact.2⟩, integralPower_eq a b.toNat⟩
      · cases h
  · rintro ⟨h, rfl⟩
    exact h.pow_eq

/-! ### Bounds -/

/-- The test on the rounded power is a test on the exact one. -/
theorem MultipliesOut.natAbs_pow_lt (h : MultipliesOut a b) :
    (a ^ b.toNat).natAbs < 2 ^ (63 : Nat) := by
  obtain ⟨x, hpower, hcell⟩ := h.within
  rw [← Int.toNat_of_nonneg h.nonneg] at hpower
  obtain ⟨hbase, hexponent, hx⟩ := power_integer hpower
  rw [hx, pow_ofInt hbase hexponent, withinCell_ofRatio_iff] at hcell
  have hrounded := Nat.lt_of_not_le fun hge => Nat.not_lt_of_le (le_nearestOnGrid_cell hge) hcell
  rw [Int.natAbs_pow]
  exact pow_lt_of_nearestOnGrid_pow_lt hrounded

theorem MultipliesOut.fits (h : MultipliesOut a b) :
    cellMin ≤ a ^ b.toNat ∧ a ^ b.toNat ≤ cellMax := by
  have hlt := h.natAbs_pow_lt
  rw [cellMin, cellMax]
  omega

/-- Already the powers of two leave the cells with the exponent 63. -/
theorem MultipliesOut.exponent_le (h : MultipliesOut a b) (ha : 2 ≤ a.natAbs) : b ≤ 62 := by
  have hlt := h.natAbs_pow_lt
  rw [Int.natAbs_pow] at hlt
  have htwo : 2 ^ b.toNat < 2 ^ (63 : Nat) :=
    calc 2 ^ b.toNat ≤ a.natAbs ^ b.toNat := Nat.pow_le_pow_left ha b.toNat
      _ < 2 ^ (63 : Nat) := hlt
  have hexponent := (Nat.pow_lt_pow_iff_right (by decide)).1 htwo
  omega

/-- **An exact power fits a cell.** -/
theorem pow_integer_within (h : pow (integer a) (integer b) = .ok (integer n)) :
    cellMin ≤ n ∧ n ≤ cellMax := by
  obtain ⟨hout, rfl⟩ := pow_eq_integer_iff.1 h
  exact hout.fits

end Number

end ReversePolish
