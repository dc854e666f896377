import ReversePolish.Binary64.Rounding

/-! # Rounding between grid points

Rounding never crosses a grid point (`le_nearestOnGrid`, `nearestOnGrid_le_of_le`), so a count on
the grid is its own rounding.  Shifting an integer by any number of places shifts its rounding
along (`nearestOnGrid_mul_two_pow`); so the doubles of integers can be computed at one unit to the
integer, without the size of a unit. -/

namespace ReversePolish

attribute [local instance (high)] instPowNat

theorem nearest_le_of_le {n d q : Nat} (hd : 0 < d) (h : n ≤ q * d) : nearest n d ≤ q := by
  have hquotient : n / d ≤ q := Nat.div_le_of_le_mul (by rwa [Nat.mul_comm])
  rcases Nat.lt_or_eq_of_le hquotient with hlt | heq
  · exact Nat.le_trans (nearest_le n d) hlt
  · have hsplit := Nat.div_add_mod n d
    rw [heq, Nat.mul_comm d q] at hsplit
    have hrest : n % d = 0 := by omega
    rw [nearest, hrest, if_pos (.inl (by simpa using hd))]
    exact hquotient

theorem le_nearest_of_le {n d q : Nat} (hd : 0 < d) (h : q * d ≤ n) : q ≤ nearest n d :=
  Nat.le_trans ((Nat.le_div_iff_mul_le hd).2 h) (le_nearest n d)

/-- A common factor does not change what is nearest. -/
theorem nearest_mul_mul (n d : Nat) {c : Nat} (hc : 0 < c) :
    nearest (n * c) (d * c) = nearest n d := by
  simp only [nearest, Nat.mul_div_mul_right _ _ hc, Nat.mul_mod_mul_right, ← Nat.mul_assoc]
  simp only [Nat.mul_lt_mul_right hc, Nat.mul_left_inj (Nat.ne_of_gt hc)]

namespace Binary64

/-! ### Grid points -/

/-- The grid is coarser further out. -/
theorem spacing_dvd_spacing {u v : Nat} (h : u ≤ v) : spacing u ∣ spacing v := by
  refine Nat.pow_dvd_pow 2 (Nat.sub_le_sub_right ?_ _)
  rcases Nat.eq_zero_or_pos u with rfl | hu
  · simp
  · rw [Nat.le_log2 (by omega)]
    exact Nat.le_trans (Nat.log2_self_le (by omega)) h

/-- A count whose binary digits are as many as those of `u` and all but the first zero. -/
theorem spacing_dvd_two_pow_log2 (u : Nat) : spacing u ∣ 2 ^ u.log2 :=
  Nat.pow_dvd_pow 2 (Nat.sub_le _ _)

theorem nearestOnGrid_le_of_le {n d g : Nat} (hd : 0 < d) (hg : spacing g ∣ g) (h : n ≤ g * d) :
    nearestOnGrid n d ≤ g := by
  have hquotient : n / d ≤ g := Nat.div_le_of_le_mul (by rwa [Nat.mul_comm])
  obtain ⟨k, hk⟩ := Nat.dvd_trans (spacing_dvd_spacing hquotient) hg
  have hnearest : nearest n (d * spacing (n / d)) ≤ k := by
    refine nearest_le_of_le (Nat.mul_pos hd (spacing_pos _)) ?_
    calc n ≤ g * d := h
      _ = k * (d * spacing (n / d)) := by
          rw [hk, Nat.mul_comm (spacing _) k, Nat.mul_assoc, Nat.mul_comm (spacing _) d]
  calc nearestOnGrid n d ≤ k * spacing (n / d) := Nat.mul_le_mul_right _ hnearest
    _ = g := by rw [Nat.mul_comm, ← hk]

/-- A multiple of the spacing at `n / d` that is not above it. -/
theorem le_nearestOnGrid_of_spacing_dvd {n d g : Nat} (hd : 0 < d) (hg : spacing (n / d) ∣ g)
    (h : g * d ≤ n) : g ≤ nearestOnGrid n d := by
  obtain ⟨k, hk⟩ := hg
  have hnearest : k ≤ nearest n (d * spacing (n / d)) := by
    refine le_nearest_of_le (Nat.mul_pos hd (spacing_pos _)) ?_
    calc k * (d * spacing (n / d)) = g * d := by
          rw [hk, Nat.mul_comm (spacing _) k, Nat.mul_assoc, Nat.mul_comm (spacing _) d]
      _ ≤ n := h
  calc g = k * spacing (n / d) := by rw [Nat.mul_comm, ← hk]
    _ ≤ nearestOnGrid n d := Nat.mul_le_mul_right _ hnearest

theorem le_nearestOnGrid {n d g : Nat} (hd : 0 < d) (hg : spacing g ∣ g) (h : g * d ≤ n) :
    g ≤ nearestOnGrid n d := by
  have hquotient : g ≤ n / d := (Nat.le_div_iff_mul_le hd).2 h
  rcases Nat.eq_zero_or_pos g with rfl | hpos
  · exact Nat.zero_le _
  have hlog : g.log2 ≤ (n / d).log2 := by
    rw [Nat.le_log2 (by omega)]
    exact Nat.le_trans (Nat.log2_self_le (by omega)) hquotient
  rcases Nat.lt_or_eq_of_le hlog with hlt | heq
  · -- `n / d` has more digits than `g`; the least count with as many lies between
    have hbelow : 2 ^ (n / d).log2 * d ≤ n := by
      rw [← Nat.le_div_iff_mul_le hd]
      exact Nat.log2_self_le (by omega)
    calc g ≤ 2 ^ (g.log2 + 1) := Nat.le_of_lt Nat.lt_log2_self
      _ ≤ 2 ^ (n / d).log2 := Nat.pow_le_pow_right (by decide) hlt
      _ ≤ nearestOnGrid n d :=
          le_nearestOnGrid_of_spacing_dvd hd (spacing_dvd_two_pow_log2 _) hbelow
  · refine le_nearestOnGrid_of_spacing_dvd hd ?_ h
    rw [spacing, ← heq]
    exact hg

/-- A count on the grid is its own rounding. -/
theorem nearestOnGrid_of_dvd {g d : Nat} (hd : 0 < d) (hg : spacing g ∣ g) :
    nearestOnGrid (g * d) d = g :=
  Nat.le_antisymm (nearestOnGrid_le_of_le hd hg (Nat.le_refl _))
    (le_nearestOnGrid hd hg (Nat.le_refl _))

theorem ofUnits_eq_finite {negative : Bool} {n d g : Nat} (fits : Fits g)
    (h : nearestOnGrid n d = g) : ofUnits negative n d = finite negative g fits := by
  subst h
  exact dif_pos fits.1

/-! ### Shifted integers -/

/-- An integer of at most 53 binary digits, shifted, lies on the grid. -/
theorem nearestOnGrid_of_le {k : Nat} (j : Nat) (hk : k ≤ 2 ^ (fractionDigits + 1)) :
    nearestOnGrid (k * 2 ^ j) 1 = k * 2 ^ j := by
  have := nearestOnGrid_of_dvd (d := 1) (by decide) (spacing_dvd_mul j hk)
  rwa [Nat.mul_one] at this

/-- A number of `j` binary digits that is shifted up by `i` places has `j + i` of them. -/
theorem mul_two_pow_lt_two_pow {m i j k : Nat} (hm : m < 2 ^ j) (hk : j + i ≤ k) :
    m * 2 ^ i < 2 ^ k :=
  calc m * 2 ^ i < 2 ^ j * 2 ^ i := Nat.mul_lt_mul_of_pos_right hm (Nat.two_pow_pos i)
    _ = 2 ^ (j + i) := (Nat.pow_add 2 j i).symm
    _ ≤ 2 ^ k := Nat.pow_le_pow_right Nat.two_pos hk

theorem log2_mul_two_pow {k : Nat} (hk : k ≠ 0) (j : Nat) : (k * 2 ^ j).log2 = k.log2 + j := by
  have hne : k * 2 ^ j ≠ 0 := Nat.ne_of_gt (Nat.mul_pos (by omega) (Nat.two_pow_pos j))
  rw [Nat.log2_eq_iff hne, Nat.add_right_comm, Nat.pow_add, Nat.pow_add]
  exact ⟨Nat.mul_le_mul_right _ (Nat.log2_self_le hk),
    Nat.mul_lt_mul_of_pos_right Nat.lt_log2_self (Nat.two_pow_pos j)⟩

/-- Rounding an integer commutes with shifting it. -/
theorem nearestOnGrid_mul_two_pow (k j : Nat) :
    nearestOnGrid (k * 2 ^ j) 1 = nearestOnGrid k 1 * 2 ^ j := by
  rcases Nat.le_total k (2 ^ (fractionDigits + 1)) with hk | hk
  · have hone := nearestOnGrid_of_le 0 hk
    simp only [Nat.pow_zero, Nat.mul_one] at hone
    rw [nearestOnGrid_of_le j hk, hone]
  · have hpos : k ≠ 0 := Nat.ne_of_gt (Nat.lt_of_lt_of_le (Nat.two_pow_pos _) hk)
    have hlog : fractionDigits ≤ k.log2 := by
      rw [Nat.le_log2 hpos]
      exact Nat.le_trans (Nat.pow_le_pow_right (by decide) (Nat.le_succ _)) hk
    have hspacing : spacing (k * 2 ^ j) = spacing k * 2 ^ j := by
      rw [spacing, spacing, log2_mul_two_pow hpos, ← Nat.pow_add]
      congr 1
      omega
    simp only [nearestOnGrid, Nat.div_one, Nat.one_mul, hspacing]
    rw [nearest_mul_mul _ _ (Nat.two_pow_pos j), Nat.mul_assoc]

end Binary64

end ReversePolish
