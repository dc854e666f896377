import Mathlib.Data.EReal.Basic
import ReversePolish.Proofs.Binary64.Integral

/-! # The value of a number

A number has its place on the line of the extended reals; only a NaN has none (`value?`).  Integers
are not rounded for it, and neither are doubles.  Comparing numbers is comparing their values
(`lt_iff`, `eq_iff`, `le_iff_value`), because counts of units lie on that line in the order of the
places that they are compared at (`Place.before_iff`). -/

namespace ReversePolish

open Binary64 (signed unitsPerOne)

/-! ### Values -/

/-- The exact value of a count of units. -/
noncomputable def Binary64.inUnits (units : Int) : ℝ := units / unitsPerOne

/-- The exact value of a double; a NaN has none. -/
noncomputable def Binary64.value? : Binary64 → Option EReal
  | finite negative units _ => some (inUnits (signed negative units) : ℝ)
  | infinite negative => some (if negative then ⊥ else ⊤)
  | nan => none

/-- The exact value of a number. -/
noncomputable def Number.value? : Number → Option EReal
  | integer i => some ((i : ℝ) : EReal)
  | double x => x.value?

/-- The value at a place. -/
noncomputable def Place.value : Place → EReal
  | bottom => ⊥
  | point units => (Binary64.inUnits units : ℝ)
  | top => ⊤

namespace Binary64

theorem real_unitsPerOne_pos : (0 : ℝ) < unitsPerOne := Nat.cast_pos.2 unitsPerOne_pos

theorem inUnits_lt_iff {m n : Int} : inUnits m < inUnits n ↔ m < n := by
  rw [inUnits, inUnits, div_lt_div_iff_of_pos_right real_unitsPerOne_pos, Int.cast_lt]

theorem inUnits_inj {m n : Int} : inUnits m = inUnits n ↔ m = n := by
  rw [inUnits, inUnits, div_left_inj' real_unitsPerOne_pos.ne', Int.cast_inj]

theorem inUnits_mul_unitsPerOne (i : Int) : inUnits (i * unitsPerOne) = i := by
  rw [inUnits, Int.cast_mul, Int.cast_natCast, mul_div_cancel_right₀ _ real_unitsPerOne_pos.ne']

theorem inUnits_eq_zero_iff {i : Int} : inUnits i = 0 ↔ i = 0 := by
  rw [inUnits, div_eq_zero_iff, or_iff_left real_unitsPerOne_pos.ne', Int.cast_eq_zero]

/-! ### Signs -/

section Signs

variable {negative : Bool} {units : Nat}

theorem inUnits_pos (h : units ≠ 0) : 0 < inUnits units :=
  div_pos (Nat.cast_pos.2 (Nat.pos_of_ne_zero h)) real_unitsPerOne_pos

theorem inUnits_signed_eq_zero_iff : inUnits (signed negative units) = 0 ↔ units = 0 := by
  rw [inUnits_eq_zero_iff, ← Int.natAbs_eq_zero, natAbs_signed]

theorem inUnits_signed_neg_iff :
    inUnits (signed negative units) < 0 ↔ negative ∧ units ≠ 0 := by
  rw [← inUnits_eq_zero_iff.2 rfl, inUnits_lt_iff]
  cases negative with
  | true =>
      rw [signed, if_pos rfl, and_iff_right rfl]
      omega
  | false => exact iff_of_false (Int.not_lt.2 (Int.natCast_nonneg units)) (by simp)

theorem inUnits_signed_le_zero_iff :
    inUnits (signed negative units) ≤ 0 ↔ negative ∨ units = 0 := by
  rw [le_iff_lt_or_eq, inUnits_signed_neg_iff, inUnits_signed_eq_zero_iff, and_or_right]
  simp only [ne_eq, em', and_true]

theorem abs_inUnits_signed (negative : Bool) (units : Nat) :
    |inUnits (signed negative units)| = inUnits units := by
  rw [inUnits, inUnits, abs_div, abs_of_pos real_unitsPerOne_pos, ← Int.cast_abs,
    Int.abs_eq_natAbs, natAbs_signed]

end Signs

/-! ### Doubles of one value -/

/-- The finite doubles are those with a real value. -/
theorem value?_eq_real_iff {x : Binary64} {r : ℝ} :
    x.value? = some (r : EReal) ↔
      ∃ negative units fits, x = finite negative units fits ∧
        inUnits (signed negative units) = r := by
  cases x with
  | finite negative units fits =>
      rw [value?, Option.some.injEq, EReal.coe_eq_coe_iff]
      refine ⟨fun h => ⟨_, _, _, rfl, h⟩, ?_⟩
      rintro ⟨_, _, _, hx, h⟩
      cases hx
      exact h
  | infinite negative =>
      refine iff_of_false ?_ (by rintro ⟨_, _, _, hx, -⟩; cases hx)
      cases negative with
      | true => exact fun h => EReal.bot_ne_coe r (Option.some.inj h)
      | false => exact fun h => EReal.top_ne_coe r (Option.some.inj h)
  | nan => exact iff_of_false (by rintro ⟨⟩) (by rintro ⟨_, _, _, hx, -⟩; cases hx)

theorem isFinite_iff_value {x : Binary64} :
    x.isFinite ↔ ∃ r : ℝ, x.value? = some (r : EReal) := by
  constructor
  · intro h
    cases x with
    | finite negative units fits => exact ⟨_, rfl⟩
    | _ => cases h
  · rintro ⟨r, h⟩
    obtain ⟨negative, units, fits, rfl, -⟩ := value?_eq_real_iff.1 h
    rfl

/-- A whole number of ones is an integer. -/
theorem toInt?_of_units {negative : Bool} {units : Nat} {fits : Fits units} {i : Int}
    (h : signed negative units = i * unitsPerOne) :
    (finite negative units fits).toInt? = some i := by
  have hunits : units = i.natAbs * unitsPerOne := by
    have := congrArg Int.natAbs h
    rwa [natAbs_signed, Int.natAbs_mul, Int.natAbs_natCast] at this
  have hmod : units % unitsPerOne = 0 := by rw [hunits, Nat.mul_mod_left]
  have hdiv : units / unitsPerOne = i.natAbs := by
    rw [hunits, Nat.mul_div_cancel _ unitsPerOne_pos]
  have hone : (unitsPerOne : Int) ≠ 0 := Int.natCast_ne_zero.2 (Nat.ne_of_gt unitsPerOne_pos)
  rw [hunits, signed_mul] at h
  rw [toInt?, if_pos hmod, hdiv, Int.eq_of_mul_eq_mul_right hone h]

/-- The doubles that are equal to an integer. -/
theorem value?_eq_int_iff {x : Binary64} {i : Int} :
    x.value? = some ((i : ℝ) : EReal) ↔ x.toInt? = some i := by
  constructor
  · intro h
    obtain ⟨negative, units, fits, rfl, hvalue⟩ := value?_eq_real_iff.1 h
    rw [← inUnits_mul_unitsPerOne, inUnits_inj] at hvalue
    exact toInt?_of_units hvalue
  · intro h
    obtain ⟨negative, units, fits, rfl, -, -⟩ := exists_of_toInt? h
    have hunits : signed negative units = i * unitsPerOne := Option.some.inj (units?_of_toInt? h)
    rw [value?, hunits, inUnits_mul_unitsPerOne]

theorem isIntegral_iff_value {negative : Bool} {units : Nat} (fits : Fits units) :
    (finite negative units fits).isIntegral ↔ ∃ i : Int, inUnits (signed negative units) = i := by
  rw [isIntegral_iff]
  refine exists_congr fun i => ?_
  rw [← value?_eq_int_iff, value?, Option.some.injEq, EReal.coe_eq_coe_iff]

theorem signed_inj {negative negative' : Bool} {m n : Nat} (hm : m ≠ 0)
    (h : signed negative m = signed negative' n) : negative = negative' ∧ m = n := by
  have hmagnitude : m = n := by
    have := congrArg Int.natAbs h
    rwa [natAbs_signed, natAbs_signed] at this
  subst hmagnitude
  refine ⟨?_, rfl⟩
  cases negative <;> cases negative' <;> simp [signed] at h ⊢ <;> omega

/-- Doubles of one value are the same, but for the sign of a zero. -/
theorem eq_of_value_eq {x y : Binary64} {v : EReal} (hx : x.value? = some v)
    (hy : y.value? = some v) : x = y ∨ x.toInt? = some 0 := by
  cases x with
  | finite negative units fits =>
      obtain ⟨negative', units', fits', rfl, hvalue⟩ := value?_eq_real_iff.1 (hy.trans hx.symm)
      rw [inUnits_inj] at hvalue
      by_cases hzero : units = 0
      · subst hzero
        refine .inr (toInt?_of_units ?_)
        rw [signed_zero, Int.zero_mul]
      · obtain ⟨rfl, rfl⟩ := signed_inj hzero hvalue.symm
        exact .inl rfl
  | infinite negative =>
      cases y with
      | infinite negative' =>
          have hvalue := Option.some.inj (hx.trans hy.symm)
          cases negative <;> cases negative' <;> simp at hvalue ⊢
      | finite negative' units' fits' =>
          obtain ⟨_, _, _, h, -⟩ := value?_eq_real_iff.1 (hx.trans hy.symm)
          cases h
      | nan => cases hy
  | nan => cases hx

end Binary64

namespace Place

open Binary64 (inUnits_lt_iff inUnits_inj)

theorem before_iff (p q : Place) : p.before q ↔ p.value < q.value := by
  cases p <;> cases q <;> simp [before, value, inUnits_lt_iff]

theorem value_inj {p q : Place} : p.value = q.value ↔ p = q := by
  cases p <;> cases q <;> simp [value, inUnits_inj]

end Place

namespace Number

variable {a b : Number} {v w : EReal}

/-- The value is that of the place. -/
theorem value?_eq (a : Number) : a.value? = a.place?.map Place.value := by
  cases a with
  | integer i =>
      rw [value?, place?, Place.ofInt, Option.map_some, Place.value,
        Binary64.inUnits_mul_unitsPerOne]
  | double x =>
      cases x with
      | infinite negative => cases negative <;> rfl
      | _ => rfl

theorem exists_place (h : a.value? = some v) : ∃ p, a.place? = some p ∧ p.value = v := by
  rwa [value?_eq, Option.map_eq_some_iff] at h

theorem place?_eq_none (h : a.value? = none) : a.place? = none := by
  rwa [value?_eq, Option.map_eq_none_iff] at h

theorem lt_iff (ha : a.value? = some v) (hb : b.value? = some w) : a.lt b ↔ v < w := by
  obtain ⟨p, hp, rfl⟩ := exists_place ha
  obtain ⟨q, hq, rfl⟩ := exists_place hb
  simp only [lt, hp, hq]
  exact Place.before_iff p q

theorem eq_iff (ha : a.value? = some v) (hb : b.value? = some w) : a.eq b ↔ v = w := by
  obtain ⟨p, hp, rfl⟩ := exists_place ha
  obtain ⟨q, hq, rfl⟩ := exists_place hb
  simp only [eq, hp, hq, decide_eq_true_eq]
  exact Place.value_inj.symm

theorem le_iff_value (ha : a.value? = some v) (hb : b.value? = some w) : a.le b ↔ v ≤ w := by
  rw [le, Bool.or_eq_true, lt_iff ha hb, eq_iff ha hb, le_iff_lt_or_eq]

/-- A number without a value is not equal to any, nor below or above it. -/
theorem unordered (h : a.value? = none ∨ b.value? = none) :
    a.lt b = false ∧ a.eq b = false ∧ a.le b = false := by
  have hplaces : a.lt b = false ∧ a.eq b = false := by
    rcases h with h | h
    · simp only [lt, eq, place?_eq_none h, and_self]
    · simp only [lt, eq, place?_eq_none h]
      cases a.place? <;> exact ⟨rfl, rfl⟩
  exact ⟨hplaces.1, hplaces.2, by rw [le, hplaces.1, hplaces.2]; rfl⟩

end Number

end ReversePolish
