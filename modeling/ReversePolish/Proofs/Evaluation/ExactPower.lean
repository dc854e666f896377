import ReversePolish.Proofs.Evaluation.Power
import ReversePolish.Proofs.Evaluation.Rules

/-! # Exact powers of cells

The base and the exponent of a power are cells, so both have doubles, and the rounded power alone
decides whether the exact one is multiplied out.  It decides well: of the powers below `2^63` in
magnitude only first powers next to there are left out (`multipliesOut_iff`).  What is multiplied
out comes to at most 62 factors, unless they are all zero or one in magnitude, and the result is the
integer token of the power: it never has to become a double again (`exact_power_bounded`). -/

namespace ReversePolish

attribute [local instance (high)] instPowNat

open Binary64 (nearestOnGrid roundedPower)
open Number (MultipliesOut)

variable {b e : Cell}

/-! ### Which powers are multiplied out -/

/-- A rounded power is below `2^63` just if the exact one is, and not a first power that rounds up
to it. -/
theorem rounded_lt_iff (a n : Nat) :
    nearestOnGrid (roundedPower a n) 1 < 2 ^ (63 : Nat) ↔
      a ^ n < 2 ^ (63 : Nat) ∧ ¬ (n = 1 ∧ 2 ^ (63 : Nat) - 512 ≤ a) := by
  obtain rfl | rfl | hn : n = 0 ∨ n = 1 ∨ 2 ≤ n := by omega
  · rw [roundedPower_zero, Nat.pow_zero]
    omega
  · have hend := Binary64.cell_le_nearestOnGrid_iff (k := a)
    rw [roundedPower_one, Nat.pow_one]
    omega
  · have hgap := Binary64.rounded_power_gap a hn
    omega

/-- **The powers that are multiplied out.** -/
theorem multipliesOut_iff :
    MultipliesOut b.value e.value ↔ 0 ≤ e.value ∧
      (b.value ^ e.value.toNat).natAbs < 2 ^ (63 : Nat) ∧
        ¬ (e.value = 1 ∧ 2 ^ (63 : Nat) - 512 ≤ b.value.natAbs) := by
  by_cases hsign : 0 ≤ e.value
  · obtain ⟨n, hn⟩ := Int.eq_ofNat_of_zero_le hsign
    have hone : (n : Int) = 1 ↔ n = 1 := by omega
    rw [hn, Number.multipliesOut_iff_rounded b.natAbs_le (exponent_le hn), rounded_lt_iff,
      Int.toNat_natCast, Int.natAbs_pow, hone, and_iff_right (Int.natCast_nonneg n)]
  · exact iff_of_false (fun h => hsign h.nonneg) fun h => hsign h.1

/-! ### What becomes of them -/

/-- A power that is multiplied out is an integer token at once. -/
theorem evaluate_of_multipliesOut (h : MultipliesOut b.value e.value) {c : Cell}
    (hc : c.value = b.value ^ e.value.toNat) :
    evaluate .pow [.integer b, .integer e] = .ok (.integer c) := by
  have hrule : Operator.pow.rule = .arithmetic Number.pow := rfl
  have htoken : Token.ofNumber (.integer c.value) = .ok (.integer c) :=
    Token.ofInt_of_fits ⟨c.min_le, c.le_max⟩
  rw [evaluate_arithmetic hrule rfl rfl, h.pow_eq, ← hc, Except.bind, htoken]
  rfl

/-- **An exact power is bounded and stays in the cells.**  The power of two integers is an integer
only where it is multiplied out.  There the base is zero or one in magnitude or the exponent is at
most 62, and the power is an integer token, by itself and as the result of `POW`. -/
theorem exact_power_bounded (b e : Cell) :
    (∀ p : Int, Number.pow (.integer b.value) (.integer e.value) = .ok (.integer p) ↔
      MultipliesOut b.value e.value ∧ p = b.value ^ e.value.toNat) ∧
    (MultipliesOut b.value e.value →
      (b.value.natAbs ≤ 1 ∨ e.value ≤ 62) ∧
      ∃ c : Cell, c.value = b.value ^ e.value.toNat ∧
        Token.ofNumber (.integer c.value) = .ok (.integer c) ∧
        evaluate .pow [.integer b, .integer e] = .ok (.integer c)) := by
  refine ⟨fun p => Number.pow_eq_integer_iff, fun h => ⟨?_, ?_⟩⟩
  · by_cases hbase : b.value.natAbs ≤ 1
    · exact .inl hbase
    · exact .inr (h.exponent_le (by omega))
  · refine ⟨⟨_, h.fits.1, h.fits.2⟩, rfl, Token.ofInt_of_fits h.fits, ?_⟩
    exact evaluate_of_multipliesOut h rfl

/-- The greatest exponent of two, and the greatest exponent that there is, of minus one. -/
theorem exact_power_bounded_last :
    (∃ c : Cell, c.value = 2 ^ 62 ∧ evaluate .pow [.integer ⟨2, by decide, by decide⟩,
      .integer ⟨62, by decide, by decide⟩] = .ok (.integer c)) ∧
    ∃ c : Cell, c.value = (-1) ^ cellMax.toNat ∧ evaluate .pow
      [.integer ⟨-1, by decide, by decide⟩, .integer ⟨cellMax, by decide, by decide⟩] =
        .ok (.integer c) := by
  have htwo : MultipliesOut 2 62 := (multipliesOut_iff (b := ⟨2, by decide, by decide⟩)
    (e := ⟨62, by decide, by decide⟩)).2 (by decide)
  have hone : MultipliesOut (-1) cellMax := by
    refine (multipliesOut_iff (b := ⟨-1, by decide, by decide⟩)
      (e := ⟨cellMax, by decide, by decide⟩)).2 ⟨by decide, ?_, by decide⟩
    rw [Int.natAbs_pow, Int.natAbs_neg, Int.natAbs_one, Nat.one_pow]
    decide
  obtain ⟨-, c, hc, -, h⟩ := (exact_power_bounded ⟨2, by decide, by decide⟩
    ⟨62, by decide, by decide⟩).2 htwo
  obtain ⟨-, d, hd, -, h'⟩ := (exact_power_bounded ⟨-1, by decide, by decide⟩
    ⟨cellMax, by decide, by decide⟩).2 hone
  exact ⟨⟨c, hc, h⟩, d, hd, h'⟩

end ReversePolish
