import ReversePolish.Binary64.Basic

/-! # Rounding a quotient to a double

`nearest n d` is the integer nearest to `n / d`, an exact half going to the even neighbour;
`nearestOnGrid n d` does the same on the grid of the doubles.  `ofUnits` turns a quotient of
units into a double and overflows to infinity; every operation that has to round goes through it,
so there is one rule of rounding.  The parity that settles a half is that of the significand: on
the grid at `n / d` units a count is a significand times the spacing. -/

namespace ReversePolish

attribute [local instance (high)] instPowNat

/-- The integer nearest to `n / d`; a half goes to the even neighbour. -/
def nearest (n d : Nat) : Nat :=
  let quotient := n / d
  let rest := 2 * (n % d)
  if rest < d ∨ rest = d ∧ quotient % 2 = 0 then quotient else quotient + 1

theorem nearest_le (n d : Nat) : nearest n d ≤ n / d + 1 := by
  unfold nearest
  dsimp only
  split <;> omega

theorem le_nearest (n d : Nat) : n / d ≤ nearest n d := by
  unfold nearest
  dsimp only
  split <;> omega

namespace Binary64

/-- The count of units on the grid nearest to `n / d`. -/
def nearestOnGrid (n d : Nat) : Nat :=
  let step := spacing (n / d)
  nearest n (d * step) * step

theorem quotient_lt_spacing (u : Nat) : u / spacing u < 2 ^ (fractionDigits + 1) := by
  rw [Nat.div_lt_iff_lt_mul (spacing_pos u)]
  rcases Nat.eq_zero_or_pos u with rfl | hu
  · exact Nat.mul_pos (Nat.two_pow_pos _) (spacing_pos _)
  unfold spacing
  rw [← Nat.pow_add]
  exact Nat.lt_of_lt_of_le (Nat.lt_log2_self (n := u))
    (Nat.pow_le_pow_right (by decide) (by omega))

theorem spacing_dvd_nearestOnGrid (n d : Nat) :
    spacing (nearestOnGrid n d) ∣ nearestOnGrid n d := by
  apply spacing_dvd_mul
  refine Nat.le_trans (nearest_le _ _) ?_
  rw [← Nat.div_div_eq_div_mul]
  exact quotient_lt_spacing _

/-- A rounded quotient is at most one more than twice the quotient. -/
theorem nearestOnGrid_le (n d : Nat) : nearestOnGrid n d ≤ 2 * (n / d) + 1 := by
  have hquotient : nearest n (d * spacing (n / d)) ≤ n / d / spacing (n / d) + 1 := by
    rw [Nat.div_div_eq_div_mul]
    exact nearest_le _ _
  have hspacing : spacing (n / d) ≤ n / d + 1 := by
    unfold spacing
    rcases Nat.eq_zero_or_pos (n / d) with h | h
    · simp [h, fractionDigits]
    · have := Nat.log2_self_le (Nat.ne_of_gt h)
      have : 2 ^ ((n / d).log2 - fractionDigits) ≤ 2 ^ (n / d).log2 :=
        Nat.pow_le_pow_right (by decide) (Nat.sub_le _ _)
      omega
  calc nearestOnGrid n d
      ≤ (n / d / spacing (n / d) + 1) * spacing (n / d) := Nat.mul_le_mul_right _ hquotient
    _ = n / d / spacing (n / d) * spacing (n / d) + spacing (n / d) := Nat.succ_mul _ _
    _ ≤ n / d + (n / d + 1) := Nat.add_le_add (Nat.div_mul_le_self _ _) hspacing
    _ = 2 * (n / d) + 1 := by omega

/-- The middle between the greatest double and `2^1024`, from which on rounding leaves the
doubles. -/
def overflowBound : Nat := (2 ^ (54 : Nat) - 1) * 2 ^ (970 : Nat)

/-- The double nearest to `n / d` units, infinite from `2^1024` on. -/
def ofUnits (negative : Bool) (n : Nat) (d : Nat := 1) : Binary64 :=
  if limit : nearestOnGrid n d < unitsLimit then
    finite negative (nearestOnGrid n d) ⟨limit, spacing_dvd_nearestOnGrid n d⟩
  else
    infinite negative

theorem isFinite_ofUnits {negative : Bool} {n d : Nat} (h : 2 * (n / d) + 1 < unitsLimit) :
    (ofUnits negative n d).isFinite := by
  unfold ofUnits
  rw [dif_pos (Nat.lt_of_le_of_lt (nearestOnGrid_le n d) h)]
  rfl

/-- Up to `2^126` a count of ones is far from where rounding leaves the doubles. -/
theorem two_mul_units_lt_unitsLimit {k : Nat} (h : k ≤ 2 ^ (126 : Nat)) :
    2 * (k * unitsPerOne) + 1 < unitsLimit := by
  have hlimit : 2 * (2 ^ (126 : Nat) * unitsPerOne) + 1 < unitsLimit := by decide +kernel
  have hbound := Nat.mul_le_mul_right unitsPerOne h
  omega

/-- The double nearest to `n / d`. -/
def ofRatio (negative : Bool) (n : Nat) (d : Nat := 1) : Binary64 :=
  ofUnits negative (n * unitsPerOne) d

/-- The double nearest to an integer. -/
def ofInt (i : Int) : Binary64 := ofRatio (i < 0) i.natAbs

end Binary64

end ReversePolish
