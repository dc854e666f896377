import ReversePolish.Proofs.Binary64.Nearest
import ReversePolish.Proofs.Number.Value

/-! # There is one nearest double

Two doubles that are nearest to one rational lie equally far from it, on its two sides, and both
have even significands.  But between two such doubles there is a third (`exists_between`), and it
lies nearer.  So the nearest double is determined (`IsNearest.eq_or_zero`); only where it is a zero
its sign is not. -/

namespace ReversePolish.Binary64

attribute [local instance (high)] instPowNat

/-! ### Between even significands -/

variable {g h : Nat}

/-- The next grid point. -/
theorem spacing_dvd_succ (hg : spacing g ∣ g) : spacing (g + spacing g) ∣ g + spacing g := by
  obtain ⟨k, hk⟩ := hg
  have hquotient : g / spacing g = k := by
    have := Nat.mul_div_cancel_left k (spacing_pos g)
    rwa [← hk] at this
  have hsucc : g + spacing g = (k + 1) * spacing g := by
    rw [Nat.succ_mul, Nat.mul_comm k, ← hk]
  have hdigits : k + 1 ≤ 2 ^ (fractionDigits + 1) := hquotient ▸ quotient_lt_spacing g
  rw [hsucc]
  exact spacing_dvd_mul _ hdigits

theorem exists_fits_between (hg : 2 * spacing g ∣ g) (hh : 2 * spacing h ∣ h) (hfits : Fits h)
    (hlt : g < h) : ∃ m, Fits m ∧ g < m ∧ m < h := by
  have hgrid : 2 * spacing g ∣ h :=
    (Nat.mul_dvd_mul_left 2 (spacing_dvd_spacing hlt.le)).trans hh
  have hstep : 2 * spacing g ≤ h - g := Nat.le_of_dvd (by omega) (Nat.dvd_sub hgrid hg)
  have hpos := spacing_pos g
  refine ⟨g + spacing g, ⟨?_, spacing_dvd_succ ((Nat.dvd_mul_left _ 2).trans hg)⟩, ?_, ?_⟩
  · exact Nat.lt_trans (by omega) hfits.1
  · omega
  · omega

theorem toRat?_lt_iff {negative negative' : Bool} :
    (signed negative g : ℚ) / unitsPerOne < (signed negative' h : ℚ) / unitsPerOne ↔
      signed negative g < signed negative' h := by
  rw [div_lt_div_iff_of_pos_right cast_unitsPerOne_pos, Int.cast_lt]

/-- Between two doubles with even significands there is a third. -/
theorem exists_between {x y : Binary64} {v w : ℚ} (hx : x.toRat? = some v) (hy : y.toRat? = some w)
    (hxeven : x.HasEvenSignificand) (hyeven : y.HasEvenSignificand) (hlt : v < w) :
    ∃ (z : Binary64) (u : ℚ), z.toRat? = some u ∧ v < u ∧ u < w := by
  obtain ⟨negative, g, hg, rfl, rfl⟩ := exists_of_toRat? hx
  obtain ⟨negative', h, hh, rfl, rfl⟩ := exists_of_toRat? hy
  rw [toRat?_lt_iff] at hlt
  have hzero : 2 * spacing 0 ∣ 0 := Nat.dvd_zero _
  suffices hmiddle : ∃ sign m, Fits m ∧ signed negative g < signed sign m ∧
      signed sign m < signed negative' h by
    obtain ⟨sign, m, hm, hbelow, habove⟩ := hmiddle
    exact ⟨finite sign m hm, _, rfl, toRat?_lt_iff.2 hbelow, toRat?_lt_iff.2 habove⟩
  cases negative with
  | false =>
      cases negative' with
      | false =>
          obtain ⟨m, hm, hbelow, habove⟩ :=
            exists_fits_between hxeven hyeven hh (Int.ofNat_lt.1 hlt)
          exact ⟨false, m, hm, Int.ofNat_lt.2 hbelow, Int.ofNat_lt.2 habove⟩
      | true =>
          rw [signed_false, signed_true] at hlt
          omega
  | true =>
      cases negative' with
      | false =>
          rw [signed_false, signed_true] at hlt ⊢
          rcases Nat.eq_zero_or_pos h with rfl | hpos
          · obtain ⟨m, hm, hbelow, habove⟩ := exists_fits_between hzero hxeven hg (by omega)
            exact ⟨true, m, hm, by rw [signed_true]; omega, by rw [signed_true]; omega⟩
          · obtain ⟨m, hm, hbelow, habove⟩ := exists_fits_between hzero hyeven hh hpos
            exact ⟨false, m, hm, by rw [signed_false]; omega, by rw [signed_false]; omega⟩
      | true =>
          rw [signed_true, signed_true] at hlt ⊢
          obtain ⟨m, hm, hbelow, habove⟩ := exists_fits_between hyeven hxeven hg (by omega)
          exact ⟨true, m, hm, by rw [signed_true]; omega, by rw [signed_true]; omega⟩

/-! ### The nearest double -/

variable {x y : Binary64} {q v w : ℚ}

/-- What lies between two rationals lies nearer to their middle. -/
theorem abs_sub_lt_of_between {u : ℚ} (hbelow : v < u) (habove : u < w) (h : |w - q| = |v - q|) :
    |u - q| < |v - q| := by
  rcases abs_eq_abs.1 h with hsame | hmiddle
  · linarith
  · have hpos : 0 < w - q := by linarith
    rw [← h, abs_of_pos hpos, abs_lt]
    constructor <;> linarith

theorem IsNearest.value_unique (hx : IsNearest q x) (hy : IsNearest q y) (hv : x.toRat? = some v)
    (hw : y.toRat? = some w) : v = w := by
  cases hx with
  | infinite => cases hv
  | finite _ hx hnear htie =>
      obtain rfl := Option.some.inj (hx.symm.trans hv)
      cases hy with
      | infinite => cases hw
      | finite _ hy hnear' htie' =>
          obtain rfl := Option.some.inj (hy.symm.trans hw)
          have hdist := le_antisymm (hnear' x _ hv) (hnear y _ hw)
          by_contra hne
          have hxeven := htie y _ hw (Ne.symm hne) hdist
          have hyeven := htie' x _ hv hne hdist.symm
          rcases lt_or_gt_of_ne hne with hlt | hgt
          · obtain ⟨z, u, hz, hbelow, habove⟩ := exists_between hv hw hxeven hyeven hlt
            exact not_lt.2 (hnear z u hz) (abs_sub_lt_of_between hbelow habove hdist)
          · obtain ⟨z, u, hz, hbelow, habove⟩ := exists_between hw hv hyeven hxeven hgt
            exact not_lt.2 (hnear' z u hz) (abs_sub_lt_of_between hbelow habove hdist.symm)

/-- Doubles of one rational value are the same, but for the sign of a zero. -/
theorem eq_or_zero_of_toRat? (hx : x.toRat? = some v) (hy : y.toRat? = some v) :
    x = y ∨ x.toInt? = some 0 ∧ y.toInt? = some 0 := by
  obtain ⟨negative, g, hg, rfl, rfl⟩ := exists_of_toRat? hx
  obtain ⟨negative', h, hh, rfl, hvalue⟩ := exists_of_toRat? hy
  rw [div_left_inj' cast_unitsPerOne_pos.ne', Int.cast_inj] at hvalue
  by_cases hzero : g = 0
  · subst hzero
    have hh0 : h = 0 := by rw [← natAbs_signed negative' h, ← hvalue, natAbs_signed]
    subst hh0
    refine .inr ⟨toInt?_of_units ?_, toInt?_of_units ?_⟩
    · rw [signed_zero, Int.zero_mul]
    · rw [signed_zero, Int.zero_mul]
  · obtain ⟨rfl, rfl⟩ := signed_inj hzero hvalue
    exact .inl rfl

/-- **The nearest double is determined, but for the sign of a zero.** -/
theorem IsNearest.eq_or_zero (hx : IsNearest q x) (hy : IsNearest q y) :
    x = y ∨ x.toInt? = some 0 ∧ y.toInt? = some 0 := by
  cases hx with
  | infinite hq =>
      cases hy with
      | infinite => exact .inl rfl
      | finite hq' => exact absurd hq (not_le.2 hq')
  | finite hq hv hnear htie =>
      cases hy with
      | infinite hq' => exact absurd hq' (not_le.2 hq)
      | finite hq' hw hnear' htie' =>
          have hvalue := value_unique (.finite hq hv hnear htie) (.finite hq' hw hnear' htie') hv hw
          exact eq_or_zero_of_toRat? hv (hvalue ▸ hw)

end ReversePolish.Binary64
