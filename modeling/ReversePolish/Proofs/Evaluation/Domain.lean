import ReversePolish.Proofs.Binary64.Domain
import ReversePolish.Proofs.Evaluation.Power

/-! # Where operators have no value

Functions and powers are computed with doubles, and have no value where those have none.  For a
function that is told from the exact value of its operand (`HasNoValueAt`), although an integer is
rounded first: rounding keeps it on its side of every small integer (`lt_rounded_iff`), and the
domains of the functions end there.  The power is told from the values of the doubles
(`PowerUndefined`). -/

namespace ReversePolish

attribute [local instance (high)] instPowNat

/-! ### Rounding an integer -/

namespace Binary64

/-- Rounding keeps an integer on its side of every integer of less than 53 binary digits. -/
theorem lt_rounded_iff {i j b : Int} (h : (ofInt i).toInt? = some j)
    (hb : b.natAbs < 2 ^ (53 : Nat)) : (b < j ↔ b < i) ∧ (j < b ↔ i < b) := by
  have hj : j = signed (i < 0) (nearestOnGrid i.natAbs 1) :=
    Option.some.inj (h.symm.trans (toInt?_ofInt (isFinite_of_toInt? h)))
  rcases Nat.le_total i.natAbs (2 ^ (53 : Nat)) with hsmall | hlarge
  · rw [nearestOnGrid_of_le_significand hsmall, signed_natAbs] at hj
    rw [hj]
    exact ⟨Iff.rfl, Iff.rfl⟩
  · have hgrid := le_nearestOnGrid_significand (Nat.le_refl _) hlarge
    by_cases hi : i < 0
    · rw [decide_eq_true hi, signed, if_pos rfl] at hj
      omega
    · rw [decide_eq_false hi, signed, if_neg Bool.false_ne_true] at hj
      omega

/-- A condition that an integer meets if and only if its double does. -/
def RoundingKeeps (P : EReal → Prop) : Prop :=
  ∀ i j : Int, (ofInt i).toInt? = some j → (P (i : ℝ) ↔ P (j : ℝ))

namespace RoundingKeeps

variable {P Q : EReal → Prop}

theorem congr (hP : RoundingKeeps P) (h : ∀ v, Q v ↔ P v) : RoundingKeeps Q := by
  intro i j hj
  rw [h, h]
  exact hP i j hj

theorem not (hP : RoundingKeeps P) : RoundingKeeps fun v => ¬ P v :=
  fun i j h => not_congr (hP i j h)

theorem and (hP : RoundingKeeps P) (hQ : RoundingKeeps Q) : RoundingKeeps fun v => P v ∧ Q v :=
  fun i j h => and_congr (hP i j h) (hQ i j h)

theorem or (hP : RoundingKeeps P) (hQ : RoundingKeeps Q) : RoundingKeeps fun v => P v ∨ Q v :=
  fun i j h => or_congr (hP i j h) (hQ i j h)

theorem lt {b : Int} (hb : b.natAbs < 2 ^ (53 : Nat)) : RoundingKeeps (· < (b : ℝ)) := by
  intro i j h
  simp only [EReal.coe_lt_coe_iff, Int.cast_lt]
  exact (lt_rounded_iff h hb).2.symm

theorem gt {b : Int} (hb : b.natAbs < 2 ^ (53 : Nat)) : RoundingKeeps ((b : ℝ) < ·) := by
  intro i j h
  simp only [EReal.coe_lt_coe_iff, Int.cast_lt]
  exact (lt_rounded_iff h hb).1.symm

theorem lt_zero : RoundingKeeps (· < 0) := by
  simpa using lt (b := 0) (by decide)

theorem le_zero : RoundingKeeps (· ≤ 0) := by
  have hpos : RoundingKeeps (0 < ·) := by simpa using gt (b := 0) (by decide)
  exact hpos.not.congr fun v => not_lt.symm

theorem eq_zero : RoundingKeeps (· = 0) :=
  (le_zero.and lt_zero.not).congr fun v => by rw [not_lt, ← le_antisymm_iff]

theorem beyondOne : RoundingKeeps BeyondOne := by
  have hlow : RoundingKeeps (· < -1) := by simpa using lt (b := -1) (by decide)
  have hhigh : RoundingKeeps (1 < ·) := by simpa using gt (b := 1) (by decide)
  exact hlow.or hhigh

/-- An integer is not infinite. -/
theorem infinite : RoundingKeeps fun v => v = ⊥ ∨ v = ⊤ := by
  intro i j _
  simp [EReal.coe_ne_bot, EReal.coe_ne_top]

end RoundingKeeps

/-- The exponential of an integer is beyond the doubles from 710 on. -/
theorem expOverflows_intCast {i : Int} : ExpOverflows (i : ℝ) ↔ ((709 : Int) : ℝ) < (i : ℝ) := by
  rw [expOverflows_coe, overflows_exp_iff, Int.cast_lt]
  constructor
  · intro h
    by_contra hle
    have hlast : ((709 : Int) : ℝ) ≤ inUnits lastInRange := by
      rw [← inUnits_mul_unitsPerOne, ← not_lt, inUnits_lt_iff]
      decide +kernel
    have hle' : (i : ℝ) ≤ inUnits lastInRange := (Int.cast_le.2 (not_lt.1 hle)).trans hlast
    exact absurd (exp_lastInRange_lt.trans_le h) (not_lt.2 (Real.exp_le_exp.2 hle'))
  · intro h
    exact Enclosure.overflowBound_le_exp (by exact_mod_cast h)

theorem RoundingKeeps.expOverflows : RoundingKeeps ExpOverflows := by
  intro i j h
  rw [expOverflows_intCast, expOverflows_intCast, Int.cast_lt, Int.cast_lt]
  exact (lt_rounded_iff h (by decide)).1.symm

end Binary64

/-! ### Numbers taken as doubles -/

namespace Number

open Binary64 (RoundingKeeps Undefined PowerUndefined)

variable {a b : Number} {x y : Binary64} {v : EReal} {P : EReal → Prop}
  {f : Binary64 → Binary64}

theorem exists_double (h : a.FitsCell) : ∃ x, a.asDouble = .ok x := by
  cases a with
  | integer i =>
      refine ⟨_, asDouble_of_le ?_⟩
      obtain ⟨hmin, hmax⟩ := h
      rw [cellMin] at hmin
      rw [cellMax] at hmax
      omega
  | double x => exact ⟨x, rfl⟩

/-- A number and its double meet the same conditions, as far as rounding keeps them. -/
theorem exists_rounded_value (hP : RoundingKeeps P) (ha : a.asDouble = .ok x)
    (hv : a.value? = some v) : ∃ w, x.value? = some w ∧ (P v ↔ P w) := by
  cases a with
  | integer i =>
      obtain ⟨hfinite, hx⟩ := asDouble_integer ha
      obtain rfl := Option.some.inj hv
      obtain ⟨j, hj⟩ : ∃ j, (Binary64.ofInt i).toInt? = some j :=
        ⟨_, Binary64.toInt?_ofInt hfinite⟩
      rw [hx]
      exact ⟨(j : ℝ), Binary64.value?_eq_int_iff.2 hj, hP i j hj⟩
  | double z =>
      obtain rfl := Except.ok.inj ha
      exact ⟨v, hv, Iff.rfl⟩

theorem asDouble_eq_nan (ha : a.asDouble = .ok x) (hv : a.value? = none) : x = .nan := by
  cases a with
  | integer i => cases hv
  | double z =>
      obtain rfl := Except.ok.inj ha
      cases z with
      | nan => rfl
      | _ => cases hv

/-- A double that has a value is that of a number which has one. -/
theorem exists_unrounded_value (hP : RoundingKeeps P) (ha : a.asDouble = .ok x)
    (hv : x.value? = some v) : ∃ w, a.value? = some w ∧ (P w ↔ P v) := by
  cases hw : a.value? with
  | none =>
      rw [asDouble_eq_nan ha hw] at hv
      cases hv
  | some w =>
      obtain ⟨v', hv', hkept⟩ := exists_rounded_value hP ha hw
      obtain rfl := Option.some.inj (hv.symm.trans hv')
      exact ⟨w, rfl, hkept⟩

theorem isZero_iff_value : a.isZero ↔ a.value? = some 0 := by
  cases a with
  | integer i =>
      rw [isZero, beq_iff_eq, value?, Option.some.injEq, EReal.coe_eq_zero, Int.cast_eq_zero]
  | double x =>
      cases x with
      | finite negative units fits =>
          rw [value?, Binary64.value?, Option.some.injEq, EReal.coe_eq_zero,
            Binary64.inUnits_signed_eq_zero_iff]
          exact beq_iff_eq
      | infinite negative =>
          refine iff_of_false Bool.false_ne_true ?_
          cases negative <;> simp [value?, Binary64.value?]
      | nan => exact iff_of_false Bool.false_ne_true (Option.some_ne_none _).symm

theorem value?_integer_zero : (integer 0).value? = some 0 := by
  rw [value?, Int.cast_zero, EReal.coe_zero]

theorem lt_zero_iff_value : b.lt (integer 0) ↔ ∃ w, b.value? = some w ∧ w < 0 := by
  cases hb : b.value? with
  | none =>
      rw [(unordered (.inl hb)).1]
      simp
  | some w =>
      rw [lt_iff hb value?_integer_zero]
      simp

/-! ### Values that are checked -/

/-- Trouble that is reported as a place where the operator has no value. -/
def IsUndefined {α : Type} (r : Except Failure α) : Prop :=
  r = .error (.trouble .undefined) ∨ r = .error (.trouble .overflow)

theorem IsUndefined.bind {α β : Type} {r : Except Failure α} (h : IsUndefined r)
    (g : α → Except Failure β) : IsUndefined (r >>= g) := by
  rcases h with rfl | rfl
  · exact .inl rfl
  · exact .inr rfl

variable {finite ordered : Bool} {value : Binary64}

theorem checked_of_undefined (h : value.isNaN ∧ ordered ∨ value.isInfinite ∧ finite) :
    IsUndefined (checked finite ordered value) := by
  unfold checked
  split
  · exact .inl rfl
  next hordered =>
    rw [← Bool.and_eq_true, ← Bool.and_eq_true, or_iff_right hordered] at h
    rw [if_pos h]
    exact .inr rfl

theorem checked_of_defined (h : ¬ (value.isNaN ∧ ordered ∨ value.isInfinite ∧ finite)) :
    checked finite ordered value = .ok value := by
  rw [← Bool.and_eq_true, ← Bool.and_eq_true, not_or] at h
  rw [checked, if_neg h.1, if_neg h.2]

theorem function_of_undefined (ha : a.asDouble = .ok x) (h : Undefined f x) :
    IsUndefined (function f a) := by
  rw [function, ha]
  refine IsUndefined.bind (checked_of_undefined ?_) _
  simpa [Undefined] using h

theorem function_of_defined (ha : a.asDouble = .ok x) (h : ¬ Undefined f x) :
    function f a = .ok (double (f x)) := by
  have hvalue : checked x.isFinite (!x.isNaN) (f x) = .ok (f x) :=
    checked_of_defined (by simpa [Undefined] using h)
  rw [function, ha]
  change (checked x.isFinite (!x.isNaN) (f x) >>= _) = _
  rw [hvalue]
  rfl

/-! ### Powers -/

theorem isFinite_pow_iff_defined {p q : ℝ} (hp : x.value? = some (p : EReal))
    (hq : y.value? = some (q : EReal)) (h : ¬ (p = 0 ∧ q < 0)) :
    (x.pow y).isFinite ↔ ¬ PowerUndefined p q := by
  obtain ⟨below, base, fits, rfl, rfl⟩ := Binary64.value?_eq_real_iff.1 hp
  obtain ⟨inverse, exponent, fits', rfl, rfl⟩ := Binary64.value?_eq_real_iff.1 hq
  exact Binary64.isFinite_pow_iff h

/-- Zero and a negative number are that as doubles too. -/
theorem not_negative_power_of_zero {p q : ℝ} (ha : a.asDouble = .ok x) (hb : b.asDouble = .ok y)
    (hp : x.value? = some (p : EReal)) (hq : y.value? = some (q : EReal))
    (h : ¬ (a.isZero && b.lt (integer 0))) : ¬ (p = 0 ∧ q < 0) := by
  rintro ⟨hzero, hneg⟩
  obtain ⟨v, hv, hkept⟩ := exists_unrounded_value RoundingKeeps.eq_zero ha hp
  obtain ⟨w, hw, hkept'⟩ := exists_unrounded_value RoundingKeeps.lt_zero hb hq
  obtain rfl := hkept.2 (EReal.coe_eq_zero.2 hzero)
  exact h (Bool.and_eq_true_iff.2 ⟨isZero_iff_value.2 hv,
    lt_zero_iff_value.2 ⟨w, hw, hkept'.2 (EReal.coe_neg'.2 hneg)⟩⟩)

theorem power_of_undefined {p q : ℝ} (ha : a.asDouble = .ok x) (hb : b.asDouble = .ok y)
    (hp : x.value? = some (p : EReal)) (hq : y.value? = some (q : EReal))
    (hzero : ¬ (p = 0 ∧ q < 0)) (h : PowerUndefined p q) : IsUndefined (power a b) := by
  have hvalue := (not_congr (isFinite_pow_iff_defined hp hq hzero)).2 (not_not.2 h)
  rw [power_of_ok ha hb, Binary64.isFinite_iff_value.2 ⟨p, hp⟩,
    Binary64.isFinite_iff_value.2 ⟨q, hq⟩]
  refine checked_of_undefined ?_
  cases hpow : x.pow y with
  | finite negative units fits =>
      rw [hpow] at hvalue
      exact absurd rfl hvalue
  | infinite negative => exact .inr ⟨rfl, rfl⟩
  | nan => exact .inl ⟨rfl, rfl⟩

theorem power_of_defined (ha : a.asDouble = .ok x) (hb : b.asDouble = .ok y)
    (h : ∀ p q : ℝ, x.value? = some (p : EReal) → y.value? = some (q : EReal) →
      ¬ (p = 0 ∧ q < 0) ∧ ¬ PowerUndefined p q) : power a b = .ok (x.pow y) := by
  rw [power_of_ok ha hb]
  cases hfinite : x.isFinite && y.isFinite with
  | false => exact checked_of_defined (by simp)
  | true =>
      obtain ⟨hx, hy⟩ := Bool.and_eq_true_iff.1 hfinite
      obtain ⟨p, hp⟩ := Binary64.isFinite_iff_value.1 hx
      obtain ⟨q, hq⟩ := Binary64.isFinite_iff_value.1 hy
      obtain ⟨hzero, hdefined⟩ := h p q hp hq
      exact checked_of_isFinite ((isFinite_pow_iff_defined hp hq hzero).2 hdefined)

theorem pow_of_undefined (hzero : ¬ (a.isZero && b.lt (integer 0)))
    (h : IsUndefined (power a b)) : IsUndefined (pow a b) := by
  rw [pow, if_neg hzero]
  exact h.bind _

/-- A number that has a token. -/
def HasToken (n : Number) : Prop := ∃ t, Token.ofNumber n = .ok t

theorem hasToken_double (x : Binary64) : HasToken (double x) := by
  obtain ⟨t, ht, -⟩ := Token.ofDouble_canonical x
  exact ⟨t, ht⟩

theorem pow_of_defined (hzero : ¬ (a.isZero && b.lt (integer 0))) {z : Binary64}
    (h : power a b = .ok z) : ∃ n, pow a b = .ok n ∧ n.HasToken := by
  cases a with
  | double x =>
      refine ⟨double z, ?_, hasToken_double z⟩
      rw [pow, if_neg hzero, h]
      rfl
  | integer i =>
      cases b with
      | double y =>
          refine ⟨double z, ?_, hasToken_double z⟩
          rw [pow, if_neg hzero, h]
          rfl
      | integer j =>
          by_cases hexact : 0 ≤ j && withinCell z
          · have hn : pow (integer i) (integer j) = .ok (integer (integralPower i j.toNat)) := by
              rw [pow, if_neg hzero, h]
              exact if_pos hexact
            have hfits := pow_integer_within hn
            exact ⟨_, hn, _, Token.ofInt_of_fits hfits⟩
          · refine ⟨double z, ?_, hasToken_double z⟩
            rw [pow, if_neg hzero, h]
            exact if_neg hexact

end Number

/-! ### Functions -/

namespace Operator

open Binary64 (Undefined BeyondOne ExpOverflows RoundingKeeps)

variable {op : Operator} {f : Binary64 → Binary64} {x : Binary64} {v : EReal}

/-- The operators that compute with a function of doubles. -/
def double? : Operator → Option (Binary64 → Binary64)
  | sin => some .sin
  | cos => some .cos
  | tan => some .tan
  | arcsin => some .arcsin
  | arccos => some .arccos
  | arctan => some .arctan
  | sqrt => some .sqrt
  | exp => some .exp
  | ln => some .ln
  | _ => none

/-- The values at which the function has none. -/
def HasNoValueAt : Operator → EReal → Prop
  | sqrt => (· < 0)
  | ln => (· ≤ 0)
  | arcsin | arccos => BeyondOne
  | sin | cos | tan => fun v => v = ⊥ ∨ v = ⊤
  | exp => ExpOverflows
  | _ => fun _ => False

theorem rule_of_double? (h : op.double? = some f) : op.rule = .function (Number.function f) := by
  cases op with
  | sin | cos | tan | arcsin | arccos | arctan | sqrt | exp | ln =>
      obtain rfl := Option.some.inj h
      rfl
  | _ => cases h

theorem undefined_iff (h : op.double? = some f) (hx : x.value? = some v) :
    Undefined f x ↔ op.HasNoValueAt v := by
  cases op with
  | sin =>
      obtain rfl := Option.some.inj h
      exact Binary64.undefined_circular_iff Binary64.isFinite_sin (fun _ => rfl) hx
  | cos =>
      obtain rfl := Option.some.inj h
      exact Binary64.undefined_circular_iff Binary64.isFinite_cos (fun _ => rfl) hx
  | tan =>
      obtain rfl := Option.some.inj h
      exact Binary64.undefined_circular_iff Binary64.isFinite_tan (fun _ => rfl) hx
  | arcsin =>
      obtain rfl := Option.some.inj h
      exact Binary64.undefined_inverse_iff Binary64.isFinite_arcsin Binary64.arcsin_of_lt
        (fun _ => rfl) hx
  | arccos =>
      obtain rfl := Option.some.inj h
      exact Binary64.undefined_inverse_iff Binary64.isFinite_arccos Binary64.arccos_of_lt
        (fun _ => rfl) hx
  | arctan =>
      obtain rfl := Option.some.inj h
      exact iff_of_false Binary64.not_undefined_arctan id
  | sqrt =>
      obtain rfl := Option.some.inj h
      exact Binary64.undefined_sqrt_iff hx
  | exp =>
      obtain rfl := Option.some.inj h
      exact Binary64.undefined_exp_iff hx
  | ln =>
      obtain rfl := Option.some.inj h
      exact Binary64.undefined_ln_iff hx
  | _ => cases h

theorem roundingKeeps_hasNoValueAt (op : Operator) : RoundingKeeps op.HasNoValueAt := by
  cases op with
  | sin | cos | tan => exact .infinite
  | arcsin | arccos => exact .beyondOne
  | sqrt => exact .lt_zero
  | exp => exact .expOverflows
  | ln => exact .le_zero
  | _ => exact fun _ _ _ => Iff.rfl

/-- Where a function has no value is told from the value of its operand, without rounding it. -/
theorem undefined_double_iff (h : op.double? = some f) {a : Number} (ha : a.asDouble = .ok x) :
    Undefined f x ↔ ∃ v, a.value? = some v ∧ op.HasNoValueAt v := by
  cases hv : a.value? with
  | none =>
      rw [Number.asDouble_eq_nan ha hv]
      exact iff_of_false Binary64.not_undefined_nan (by simp)
  | some v =>
      obtain ⟨w, hw, hkept⟩ :=
        Number.exists_rounded_value op.roundingKeeps_hasNoValueAt ha hv
      rw [undefined_iff h hw, ← hkept]
      simp

end Operator

end ReversePolish
