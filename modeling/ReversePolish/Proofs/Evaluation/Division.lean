import Mathlib.Data.Rat.Floor
import ReversePolish.Proofs.Evaluation.Integers
import ReversePolish.Proofs.Evaluation.Rules

/-! # Division with a remainder

`DIV` and `MOD` compute the two parts of one division, the one that rounds the quotient down
(`fdiv_eq_floor`); so the remainder has the sign of the divisor (`fmod_bounds_pos`,
`fmod_bounds_neg`) and always fits a cell.  The quotient of two cells does not fit in one case,
which is that of the least integer and minus one (`fdiv_fits`).

A divisor that is zero, of either kind and either sign, is looked for before anything is computed
(`evaluate_by_zero`). -/

namespace ReversePolish

/-! ### The division that rounds down -/

theorem fdiv_eq_floor_of_nonneg (a : Int) {b : Int} (hb : 0 ≤ b) :
    a.fdiv b = ⌊(a : ℚ) / b⌋ := by
  lift b to Nat using hb
  rw [Int.fdiv_eq_ediv_of_nonneg a (Int.natCast_nonneg b), Int.cast_natCast,
    Rat.floor_intCast_div_natCast]

theorem fdiv_eq_floor (a b : Int) : a.fdiv b = ⌊(a : ℚ) / b⌋ := by
  rcases Int.le_total 0 b with hb | hb
  · exact fdiv_eq_floor_of_nonneg a hb
  · have h := fdiv_eq_floor_of_nonneg (-a) (Int.neg_nonneg.2 hb)
    rwa [Int.neg_fdiv_neg, Int.cast_neg, Int.cast_neg, neg_div_neg_eq] at h

theorem fmod_bounds_pos (a : Int) {b : Int} (hb : 0 < b) : 0 ≤ a.fmod b ∧ a.fmod b < b :=
  ⟨Int.fmod_nonneg_of_pos a hb, Int.fmod_lt_of_pos a hb⟩

theorem fmod_bounds_neg (a : Int) {b : Int} (hb : b < 0) : b < a.fmod b ∧ a.fmod b ≤ 0 := by
  have h := fmod_bounds_pos (-a) (Int.neg_pos.2 hb)
  rw [Int.neg_fmod_neg] at h
  omega

/-! ### Cells -/

variable {a b : Cell}

theorem fmod_fits (a : Cell) (hb : b.value ≠ 0) :
    cellMin ≤ a.value.fmod b.value ∧ a.value.fmod b.value ≤ cellMax := by
  have hmin := b.min_le
  have hmax := b.le_max
  rcases Int.lt_or_gt_of_ne hb with hneg | hpos
  · have := fmod_bounds_neg a.value hneg
    simp only [cellMin, cellMax] at *
    omega
  · have := fmod_bounds_pos a.value hpos
    simp only [cellMin, cellMax] at *
    omega

/-- The one quotient that does not fit. -/
def QuotientOverflows (a b : Cell) : Prop := a.value = cellMin ∧ b.value = -1

theorem fdiv_of_overflows (h : QuotientOverflows a b) :
    a.value.fdiv b.value = 9223372036854775808 := by
  rw [h.1, h.2]
  decide

theorem fdiv_fits (hb : b.value ≠ 0) (h : ¬ QuotientOverflows a b) :
    cellMin ≤ a.value.fdiv b.value ∧ a.value.fdiv b.value ≤ cellMax := by
  refine ⟨cellMin_le_fdiv ⟨a.min_le, a.le_max⟩, Int.le_of_not_gt fun hgt => h ?_⟩
  have hsplit := Int.mul_fdiv_add_fmod a.value b.value
  have hmin := a.min_le
  have hmax := a.le_max
  generalize a.value.fdiv b.value = q at *
  unfold QuotientOverflows
  rw [cellMin, cellMax] at *
  -- past the cells the quotient is too large for any divisor but minus one
  rcases Int.lt_or_gt_of_ne hb with hneg | hpos
  · have hrest := fmod_bounds_neg a.value hneg
    obtain hone | htwo : b.value = -1 ∨ b.value ≤ -2 := by omega
    · have : b.value * q = -1 * q := by rw [hone]
      omega
    · have := Int.mul_le_mul_of_nonneg_right htwo (by omega : 0 ≤ q)
      omega
  · have hrest := fmod_bounds_pos a.value hpos
    have := Int.mul_le_mul_of_nonneg_right (Int.add_one_le_of_lt hpos) (by omega : 0 ≤ q)
    omega

/-! ### Evaluation -/

/-- Divides its first operand by its second. -/
def Operator.IsDivision (op : Operator) : Prop := op = .div ∨ op = .eucDiv ∨ op = .mod

instance (op : Operator) : Decidable op.IsDivision := inferInstanceAs (Decidable (_ ∨ _))

/-- A divisor that is zero is found before anything is computed. -/
theorem evaluate_by_zero {op : Operator} (hop : op.IsDivision) {s u : Token} {n z : Number}
    (hs : s.number? = some n) (hu : u.number? = some z) (hzero : z.isZero) :
    evaluate op [s, u] = .error (.fault .divisionByZero) := by
  rcases hop with rfl | rfl | rfl
  · rw [evaluate_arithmetic rfl hs hu]
    simp only [Number.div, if_pos hzero]
    rfl
  · rw [evaluate_arithmetic rfl hs hu, Number.floorDiv, if_pos hzero]
    rfl
  · rw [evaluate_arithmetic rfl hs hu, Number.floorMod, if_pos hzero]
    rfl

theorem Number.isZero_integer {i : Int} : (integer i).isZero ↔ i = 0 := beq_iff_eq

theorem evaluate_mod_eq (a : Cell) (hb : b.value ≠ 0) :
    evaluate .mod [.integer a, .integer b] =
      .ok (.integer ⟨a.value.fmod b.value, (fmod_fits a hb).1, (fmod_fits a hb).2⟩) := by
  have hzero := mt Number.isZero_integer.1 hb
  rw [evaluate_arithmetic rfl rfl rfl, Number.floorMod, if_neg hzero, Number.remainder,
    if_neg hzero, Number.lift, Except.bind, Token.ofNumber, Token.ofInt_of_fits (fmod_fits a hb)]
  rfl

theorem evaluate_eucDiv_eq (a : Cell) (hb : b.value ≠ 0) :
    evaluate .eucDiv [.integer a, .integer b] =
      (Token.ofInt (a.value.fdiv b.value)).mapError (Failure.reported .eucDiv) := by
  have hzero := mt Number.isZero_integer.1 hb
  rw [evaluate_arithmetic rfl rfl rfl, Number.floorDiv, if_neg hzero, Number.floorQuotient,
    if_neg hzero, Number.lift, Except.bind, Token.ofNumber]

theorem evaluate_eucDiv_of_fits (hb : b.value ≠ 0) (h : ¬ QuotientOverflows a b) :
    evaluate .eucDiv [.integer a, .integer b] =
      .ok (.integer ⟨a.value.fdiv b.value, (fdiv_fits hb h).1, (fdiv_fits hb h).2⟩) := by
  rw [evaluate_eucDiv_eq a hb, Token.ofInt_of_fits (fdiv_fits hb h)]
  rfl

theorem evaluate_eucDiv_of_overflows (hb : b.value ≠ 0) (h : QuotientOverflows a b) :
    evaluate .eucDiv [.integer a, .integer b] = .ok (.float (.ofInt 9223372036854775808)) := by
  rw [evaluate_eucDiv_eq a hb, fdiv_of_overflows h, Token.ofInt_of_not_fits (by decide)
    (Binary64.isFinite_of_toInt? toInt?_ofInt_past_cells)]
  rfl

/-- The numeric tokens that are zero. -/
def Token.zeros : List Token :=
  [.integer ⟨0, by decide, by decide⟩, .float (.zero false), .float (.zero true)]

theorem Token.number_of_mem_zeros {u : Token} (h : u ∈ zeros) :
    ∃ z, u.number? = some z ∧ z.isZero := by
  simp only [zeros, List.mem_cons, List.not_mem_nil, or_false] at h
  rcases h with rfl | rfl | rfl <;> exact ⟨_, rfl, rfl⟩

/-- **Quotient and remainder of two cells are the two parts of the division that rounds down, and
nothing is divided by a zero.** -/
theorem floor_division :
    (∀ a b : Cell, b.value ≠ 0 → ∃ q r : Int,
        q = ⌊(a.value : ℚ) / b.value⌋ ∧ a.value = b.value * q + r ∧
        (0 < b.value → 0 ≤ r ∧ r < b.value) ∧ (b.value < 0 → b.value < r ∧ r ≤ 0) ∧
        (∃ c : Cell, c.value = r ∧
          evaluate .mod [.integer a, .integer b] = .ok (.integer c)) ∧
        (¬ QuotientOverflows a b → ∃ c : Cell, c.value = q ∧
          evaluate .eucDiv [.integer a, .integer b] = .ok (.integer c)) ∧
        (QuotientOverflows a b → q = 9223372036854775808 ∧ ∃ x : Binary64, x.toInt? = some q ∧
          evaluate .eucDiv [.integer a, .integer b] = .ok (.float x))) ∧
      ∀ s u : Token, s.isNumeric → u ∈ Token.zeros →
        evaluate .eucDiv [s, u] = .error (.fault .divisionByZero) ∧
          evaluate .mod [s, u] = .error (.fault .divisionByZero) := by
  constructor
  · intro a b hb
    refine ⟨a.value.fdiv b.value, a.value.fmod b.value, fdiv_eq_floor _ _,
      (Int.mul_fdiv_add_fmod _ _).symm, fmod_bounds_pos _, fmod_bounds_neg _,
      ⟨_, rfl, evaluate_mod_eq a hb⟩, fun h => ⟨_, rfl, evaluate_eucDiv_of_fits hb h⟩, fun h => ?_⟩
    rw [fdiv_of_overflows h]
    exact ⟨rfl, _, toInt?_ofInt_past_cells, evaluate_eucDiv_of_overflows hb h⟩
  · intro s u hs hu
    obtain ⟨n, hn⟩ := Token.isNumeric_iff_number.1 hs
    obtain ⟨z, hz, hzero⟩ := Token.number_of_mem_zeros hu
    exact ⟨evaluate_by_zero (.inr (.inl rfl)) hn hz hzero,
      evaluate_by_zero (.inr (.inr rfl)) hn hz hzero⟩

/-- Minus seven by two, the quotient that does not fit, and a divisor that is a negative zero. -/
theorem floor_division_signs :
    (∃ q r : Int, q = ⌊((-7 : Int) : ℚ) / ((2 : Int) : ℚ)⌋ ∧ -7 = 2 * q + r ∧ 0 ≤ r ∧ r < 2) ∧
      (∃ x : Binary64, x.toInt? = some 9223372036854775808 ∧
        evaluate .eucDiv [.integer ⟨cellMin, by decide, by decide⟩,
          .integer ⟨-1, by decide, by decide⟩] = .ok (.float x)) ∧
      evaluate .mod [.float .nan, .float (.zero true)] = .error (.fault .divisionByZero) := by
  obtain ⟨hcells, hzeros⟩ := floor_division
  obtain ⟨q, r, hq, hsplit, hpos, -⟩ :=
    hcells ⟨-7, by decide, by decide⟩ ⟨2, by decide, by decide⟩ (by decide)
  obtain ⟨q', -, -, -, -, -, -, -, hoverflow⟩ :=
    hcells ⟨cellMin, by decide, by decide⟩ ⟨-1, by decide, by decide⟩ (by decide)
  obtain ⟨hq', x, hx, heval⟩ := hoverflow ⟨rfl, rfl⟩
  refine ⟨⟨q, r, hq, hsplit, hpos (by decide)⟩, ⟨x, hq' ▸ hx, heval⟩, ?_⟩
  exact (hzeros (.float .nan) (.float (.zero true)) rfl (by simp [Token.zeros])).2

end ReversePolish
