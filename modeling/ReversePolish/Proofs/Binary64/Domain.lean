import ReversePolish.Binary64.Arithmetic
import ReversePolish.Binary64.Trigonometry
import ReversePolish.Proofs.Binary64.Exponential
import ReversePolish.Proofs.Binary64.PowerRange

/-! # Where functions of doubles have no value

A function has no value at a double if it makes no number from a number, or an infinity from a
finite one (`Undefined`).  Whether it has one is a question about the exact value of the double:
`undefined_iff` reduces it to the finite doubles and the two infinities, and a NaN is never in
question. -/

namespace ReversePolish.Binary64

attribute [local instance (high)] instPowNat

/-- No number from a number, or an infinity from a finite number. -/
def Undefined (f : Binary64 → Binary64) (x : Binary64) : Prop :=
  (f x).isNaN ∧ ¬ x.isNaN ∨ (f x).isInfinite ∧ x.isFinite

variable {f : Binary64 → Binary64} {x : Binary64} {v : EReal} {negative : Bool} {units : Nat}
  {fits : Fits units}

theorem not_undefined_nan : ¬ Undefined f nan := by
  rintro (⟨-, h⟩ | ⟨-, h⟩)
  · exact h rfl
  · cases h

theorem undefined_infinite_iff :
    Undefined f (infinite negative) ↔ (f (infinite negative)).isNaN := by
  simp [Undefined, isNaN, isFinite]

theorem undefined_finite_iff :
    Undefined f (finite negative units fits) ↔ ¬ (f (finite negative units fits)).isFinite := by
  cases h : f (finite negative units fits) <;> simp [Undefined, h, isNaN, isFinite, isInfinite]

/-- Where a function has no value, told from finite doubles and infinities. -/
theorem undefined_iff {P : EReal → Prop} (hx : x.value? = some v)
    (hfinite : ∀ negative units fits, (f (finite negative units fits)).isFinite ↔
      ¬ P (inUnits (signed negative units) : ℝ))
    (hlow : (f (infinite true)).isNaN ↔ P ⊥) (hhigh : (f (infinite false)).isNaN ↔ P ⊤) :
    Undefined f x ↔ P v := by
  cases x with
  | finite negative units fits =>
      obtain rfl := Option.some.inj hx
      rw [undefined_finite_iff, hfinite, not_not]
  | infinite negative =>
      obtain rfl := Option.some.inj hx
      rw [undefined_infinite_iff]
      cases negative with
      | true => exact hlow
      | false => exact hhigh
  | nan => cases hx

/-! ### Roots and logarithms -/

/-- The root of a double is far from the last doubles. -/
theorem isFinite_ofUnits_root (fits : Fits units) :
    (ofUnits false (rootOverEight units) 8).isFinite := by
  have hroot : rootOverEight units ≤ 2 * (16 * units * unitsPerOne).sqrt + 1 := by
    unfold rootOverEight
    dsimp only
    split <;> omega
  have hsquare := Nat.sqrt_le (16 * units * unitsPerOne)
  have hlimit : 16 * units * unitsPerOne < unitsLimit / 2 * (unitsLimit / 2) :=
    Nat.lt_of_le_of_lt (Nat.mul_le_mul_right _ (Nat.mul_le_mul_left 16 fits.1.le))
      (by decide +kernel)
  have hbound := Nat.mul_self_lt_mul_self_iff.1 (Nat.lt_of_le_of_lt hsquare hlimit)
  refine isFinite_ofUnits ?_
  omega

theorem isFinite_sqrt_iff :
    (finite negative units fits).sqrt.isFinite ↔ ¬ (negative ∧ units ≠ 0) := by
  rw [sqrt]
  split
  next h => exact iff_of_true rfl fun hnegative => hnegative.2 h
  split
  next h hnegative => exact iff_of_false Bool.false_ne_true (not_not.2 ⟨hnegative, h⟩)
  next h hpositive =>
    exact iff_of_true (isFinite_ofUnits_root fits) fun hnegative => hpositive hnegative.1

theorem undefined_sqrt_iff (hx : x.value? = some v) : Undefined sqrt x ↔ v < 0 := by
  refine undefined_iff (P := (· < 0)) hx (fun negative units fits => ?_) (by simp [sqrt, isNaN])
    (by simp [sqrt, isNaN])
  rw [isFinite_sqrt_iff, ← inUnits_signed_neg_iff, EReal.coe_neg']

theorem isFinite_ln_iff :
    (finite negative units fits).ln.isFinite ↔ ¬ (negative ∨ units = 0) := by
  by_cases h : negative ∨ units = 0
  · rw [ln, if_pos h]
    exact iff_of_false Bool.false_ne_true (not_not.2 h)
  · obtain ⟨hnegative, hunits⟩ := not_or.1 h
    rw [Bool.not_eq_true] at hnegative
    subst hnegative
    exact iff_of_true (isFinite_ln hunits) h

theorem undefined_ln_iff (hx : x.value? = some v) : Undefined ln x ↔ v ≤ 0 := by
  refine undefined_iff (P := (· ≤ 0)) hx (fun negative units fits => ?_) (by simp [ln, isNaN])
    (by simp [ln, isNaN])
  rw [isFinite_ln_iff, ← inUnits_signed_le_zero_iff]
  exact_mod_cast Iff.rfl

/-! ### The exponential -/

theorem overflows_exp_iff {r : ℝ} : Overflows (Real.exp r) ↔ (overflowBound : ℝ) ≤ Real.exp r := by
  rw [Overflows, abs_of_pos (Real.exp_pos r)]

/-- The exponential of the value is beyond the doubles. -/
def ExpOverflows (v : EReal) : Prop := ∃ r : ℝ, v = r ∧ Overflows (Real.exp r)

theorem expOverflows_coe {r : ℝ} : ExpOverflows r ↔ Overflows (Real.exp r) := by
  simp only [ExpOverflows, EReal.coe_eq_coe_iff, exists_eq_left']

theorem undefined_exp_iff (hx : x.value? = some v) : Undefined exp x ↔ ExpOverflows v := by
  refine undefined_iff (P := ExpOverflows) hx (fun negative units fits => ?_) ?_ ?_
  · rw [expOverflows_coe, overflows_exp_iff, not_le]
    exact (hasRangeOf_exp negative units fits).isFinite_iff
  · refine iff_of_false Bool.false_ne_true ?_
    rintro ⟨r, h, -⟩
    exact EReal.bot_ne_coe r h
  · refine iff_of_false Bool.false_ne_true ?_
    rintro ⟨r, h, -⟩
    exact EReal.top_ne_coe r h

/-! ### Circular functions -/

/-- A circular function has no value at the infinities. -/
theorem undefined_circular_iff (hfinite : ∀ {x : Binary64}, x.isFinite → (f x).isFinite)
    (hinfinite : ∀ negative, f (infinite negative) = nan) (hx : x.value? = some v) :
    Undefined f x ↔ v = ⊥ ∨ v = ⊤ := by
  refine undefined_iff (P := fun v => v = ⊥ ∨ v = ⊤) hx (fun negative units fits => ?_) ?_ ?_
  · exact iff_of_true (hfinite rfl) (not_or.2 ⟨EReal.coe_ne_bot _, EReal.coe_ne_top _⟩)
  · exact iff_of_true (by rw [hinfinite]; rfl) (.inl rfl)
  · exact iff_of_true (by rw [hinfinite]; rfl) (.inr rfl)

theorem one_lt_abs_inUnits_iff : 1 < |inUnits (signed negative units)| ↔ unitsPerOne < units := by
  rw [abs_inUnits_signed, inUnits, Int.cast_natCast, lt_div_iff₀ real_unitsPerOne_pos, one_mul,
    Nat.cast_lt]

/-- Beyond one on either side. -/
def BeyondOne (v : EReal) : Prop := v < -1 ∨ 1 < v

theorem beyondOne_coe {r : ℝ} : BeyondOne r ↔ 1 < |r| := by
  rw [lt_abs, or_comm, lt_neg, BeyondOne, ← EReal.coe_one, ← EReal.coe_neg, EReal.coe_lt_coe_iff,
    EReal.coe_lt_coe_iff]

/-- An inverse of a circular function with values up to one has none beyond one. -/
theorem undefined_inverse_iff
    (hinside : ∀ {negative units fits}, units ≤ unitsPerOne →
      (f (finite negative units fits)).isFinite)
    (houtside : ∀ {negative units fits}, unitsPerOne < units →
      f (finite negative units fits) = nan)
    (hinfinite : ∀ negative, f (infinite negative) = nan) (hx : x.value? = some v) :
    Undefined f x ↔ BeyondOne v := by
  refine undefined_iff (P := BeyondOne) hx (fun negative units fits => ?_) ?_ ?_
  · rw [beyondOne_coe, one_lt_abs_inUnits_iff]
    by_cases h : unitsPerOne < units
    · rw [houtside h]
      exact iff_of_false Bool.false_ne_true (not_not.2 h)
    · exact iff_of_true (hinside (Nat.le_of_not_lt h)) h
  · exact iff_of_true (by rw [hinfinite]; rfl) (.inl (by decide))
  · exact iff_of_true (by rw [hinfinite]; rfl) (.inr (by decide))

theorem arcsin_of_lt (h : unitsPerOne < units) : (finite negative units fits).arcsin = nan := by
  rw [arcsin, if_neg (Nat.ne_zero_of_lt h), if_neg (Nat.not_lt.2 h.le), if_neg h.ne']

theorem arccos_of_lt (h : unitsPerOne < units) : (finite negative units fits).arccos = nan := by
  rw [arccos, if_neg (Nat.not_lt.2 h.le), if_neg h.ne']

/-- The arc tangent has a value everywhere. -/
theorem not_undefined_arctan : ¬ Undefined arctan x := by
  cases hx : x.isNaN with
  | true =>
      cases x with
      | nan => exact not_undefined_nan
      | _ => cases hx
  | false =>
      have hfinite := isFinite_arctan hx
      unfold Undefined
      cases h : x.arctan <;> rw [h] at hfinite <;> simp [isNaN, isInfinite, isFinite] at hfinite ⊢

end ReversePolish.Binary64
