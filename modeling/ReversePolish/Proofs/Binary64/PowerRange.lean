import Mathlib.Analysis.SpecialFunctions.Pow.Real
import ReversePolish.Proofs.Binary64.IntegralPower
import ReversePolish.Proofs.Enclosure.Range
import ReversePolish.Proofs.Number.Value

/-! # The range of the power

The power of two doubles is finite or not as the power of their values asks for
(`isFinite_pow_iff`).  On magnitudes that follows the three ways in which it is computed: a binary
fraction that is written out is the power (`hasRangeOf_exactPower`), a large power of a base of at
least two is beyond the doubles (`hasRangeOf_large`), and any other is read off between the ends of
an enclosure, or decided by comparing whole powers where the ends do not agree
(`hasRangeOf_settledPower`). -/

namespace ReversePolish.Binary64

attribute [local instance (high)] instPowNat

open Enclosure

variable {base exponent odd root times : Nat} {inverse : Bool} {e shift : Int} {power : Binary64}

/-! ### Binary fractions -/

/-- The binary fraction `n * 2 ^ e`. -/
noncomputable def dyadic (n : Nat) (e : Int) : ℝ := n * (2 : ℝ) ^ e

theorem dyadic_pos {n : Nat} (hn : n ≠ 0) (e : Int) : 0 < dyadic n e :=
  mul_pos (Nat.cast_pos.2 (Nat.pos_of_ne_zero hn)) (by positivity)

theorem dyadic_natCast (n e : Nat) : dyadic n e = ((n * 2 ^ e : Nat) : ℝ) := by
  rw [dyadic, zpow_natCast, Nat.cast_mul]
  exact congrArg _ (Nat.cast_pow 2 e).symm

theorem dyadic_negSucc (n e : Nat) : dyadic n (.negSucc e) = (n : ℝ) / (2 ^ (e + 1) : Nat) := by
  rw [dyadic, zpow_negSucc, ← div_eq_mul_inv]
  exact congrArg _ (Nat.cast_pow 2 (e + 1)).symm

theorem zpow_signed (r : ℝ) (inverse : Bool) (k : Nat) :
    r ^ signed inverse k = if inverse then (r ^ k)⁻¹ else r ^ k := by
  cases inverse with
  | false => exact zpow_natCast r k
  | true =>
      rw [signed, if_pos rfl, zpow_neg, zpow_natCast]
      rfl

theorem hasRangeOf_scaledPower (inverse : Bool) {n : Nat} (hn : n ≠ 0) (e : Int) :
    HasRangeOf (scaledPower inverse n e) (if inverse then (dyadic n e)⁻¹ else dyadic n e) := by
  have hpos : 0 < n := Nat.pos_of_ne_zero hn
  cases e with
  | ofNat e =>
      rw [scaledPower, Int.ofNat_eq_natCast, dyadic_natCast]
      cases inverse with
      | false => simpa using hasRangeOf_ofRatio (n * 2 ^ e) Nat.one_pos
      | true => simpa using hasRangeOf_ofRatio 1 (Nat.mul_pos hpos (Nat.two_pow_pos e))
  | negSucc e =>
      rw [scaledPower, dyadic_negSucc]
      cases inverse with
      | false => simpa using hasRangeOf_ofRatio n (Nat.two_pow_pos (e + 1))
      | true => simpa using hasRangeOf_ofRatio (2 ^ (e + 1)) hpos

theorem hasRangeOf_powerOfTwo (e : Int) : HasRangeOf (powerOfTwo e) ((2 : ℝ) ^ e) := by
  unfold powerOfTwo
  split
  next h =>
    obtain ⟨k, rfl⟩ := Int.eq_ofNat_of_zero_le (by omega : 0 ≤ e)
    rw [zpow_natCast]
    exact .of_le (overflowBound_le_two_pow (by omega))
  split
  next h =>
    have hsmall : (2 : ℝ) ^ e ≤ 1 := zpow_le_one_of_nonpos₀ one_le_two (by omega)
    exact .of_lt rfl (hsmall.trans_lt one_lt_overflowBound)
  · have hrange := hasRangeOf_scaledPower false one_ne_zero e
    rwa [if_neg Bool.false_ne_true, dyadic, Nat.cast_one, one_mul] at hrange

/-! ### Powers that are written out -/

theorem dyadic_pow (n : Nat) (e : Int) (k : Nat) : dyadic n e ^ k = dyadic (n ^ k) (e * k) := by
  rw [dyadic, dyadic, mul_pow, zpow_mul, zpow_natCast]
  congr 1
  exact (Nat.cast_pow n k).symm

theorem hasRangeOf_integralPower (hodd : odd ≠ 0)
    (h : integralPower? odd e inverse times = some power) :
    HasRangeOf power (dyadic odd e ^ signed inverse times) := by
  unfold integralPower? at h
  split at h
  next hone =>
    have hexponent : (if inverse then -(e * times) else e * times) = e * signed inverse times := by
      cases inverse with
      | false => rfl
      | true => exact (Int.mul_neg e times).symm
    rw [hexponent] at h
    cases h
    rw [hone, dyadic, Nat.cast_one, one_mul, ← zpow_mul]
    exact hasRangeOf_powerOfTwo _
  · split at h
    · cases h
      rw [zpow_signed, dyadic_pow]
      exact hasRangeOf_scaledPower inverse (pow_ne_zero times hodd) _
    · cases h

theorem mul_self_of_exactRoot (h : exactRoot? odd = some root) : root * root = odd := by
  unfold exactRoot? at h
  dsimp only at h
  split at h
  next hsquare =>
    cases h
    exact hsquare
  · cases h

/-- An exact root is a root. -/
theorem dyadic_of_exactRoots {n : Nat} (h : exactRoots? n odd e = some (root, shift)) :
    dyadic root shift ^ 2 ^ n = dyadic odd e := by
  induction n generalizing odd e with
  | zero =>
      cases h
      exact pow_one _
  | succ n ih =>
      rw [exactRoots?] at h
      split at h
      next heven =>
        obtain ⟨half, hhalf, hroots⟩ := Option.bind_eq_some_iff.1 h
        have hsquare : dyadic half (e / 2) ^ 2 = dyadic odd e := by
          have hexponent : e / 2 * (2 : Nat) = e :=
            Int.ediv_mul_cancel (Int.dvd_of_emod_eq_zero heven)
          rw [dyadic_pow, pow_two, mul_self_of_exactRoot hhalf, hexponent]
        rw [pow_succ, pow_mul, ih hroots, hsquare]
      · cases h

/-- A magnitude is an odd number times a power of two. -/
theorem dyadic_oddPart (base : Nat) :
    dyadic (oddPart base) (twos base - unitPlaces) = inUnits base := by
  rw [dyadic, zpow_sub₀ two_ne_zero, zpow_natCast, zpow_natCast, ← mul_div_assoc, inUnits]
  congr 1
  · have hvalue : ((oddPart base * 2 ^ twos base : Nat) : ℝ) = base := by
      rw [oddPart_mul_two_pow_twos]
    rw [Nat.cast_mul] at hvalue
    rw [Int.cast_natCast, ← hvalue]
    exact congrArg _ (Nat.cast_pow 2 _).symm
  · exact (Nat.cast_pow 2 unitPlaces).symm

/-- The root of the base is raised to a whole number. -/
theorem rpow_of_root {z : ℝ} (hz : 0 < z) {n k : Nat} (hn : n + k = unitPlaces) (inverse : Bool)
    (times : Nat) :
    (z ^ 2 ^ n) ^ inUnits (signed inverse (times * 2 ^ k)) = z ^ signed inverse times := by
  have hscale (j : Nat) : ((2 ^ j : Nat) : ℝ) = (2 : ℝ) ^ j := Nat.cast_pow 2 j
  have hexponent :
      (2 : ℝ) ^ n * inUnits (signed inverse (times * 2 ^ k)) = signed inverse times := by
    rw [inUnits, signed_mul, Int.cast_mul, Int.cast_natCast, unitsPerOne, ← hn, hscale, hscale,
      pow_add]
    field_simp
  rw [← Real.rpow_natCast, ← Real.rpow_mul hz.le, Nat.cast_pow, Nat.cast_ofNat, hexponent,
    Real.rpow_intCast]

/-- What is written out is the power. -/
theorem hasRangeOf_exactPower (hbase : base ≠ 0)
    (h : exactPower? base inverse exponent = some power) :
    HasRangeOf power (inUnits base ^ inUnits (signed inverse exponent)) := by
  obtain ⟨⟨root, shift⟩, hroots, hpower⟩ := Option.bind_eq_some_iff.1 h
  have hroot : dyadic root shift ^ 2 ^ (unitPlaces - min (twos exponent) unitPlaces) =
      inUnits base := (dyadic_of_exactRoots hroots).trans (dyadic_oddPart base)
  have hpos := inUnits_pos hbase
  have hne : root ≠ 0 := by
    rintro rfl
    rw [dyadic, Nat.cast_zero, zero_mul, zero_pow (Nat.two_pow_pos _).ne'] at hroot
    exact hpos.ne hroot
  have hexponent : exponent / 2 ^ min (twos exponent) unitPlaces *
      2 ^ min (twos exponent) unitPlaces = exponent :=
    Nat.div_mul_cancel ((Nat.pow_dvd_pow 2 (Nat.min_le_left _ _)).trans (two_pow_twos_dvd exponent))
  have hvalue := rpow_of_root (dyadic_pos hne shift)
    (Nat.sub_add_cancel (Nat.min_le_right (twos exponent) unitPlaces)) inverse
    (exponent / 2 ^ min (twos exponent) unitPlaces)
  rw [hroot, hexponent] at hvalue
  rw [hvalue]
  exact hasRangeOf_integralPower hne hpower

/-! ### Powers by the logarithm -/

theorem holds_power (hbase : base ≠ 0) (inverse : Bool) (exponent : Nat) {p : Nat} (hp : 4 ≤ p) :
    Brackets (powerEnds base inverse exponent p)
      (inUnits base ^ inUnits (signed inverse exponent)) := by
  have hlog := holds_lnEnclosure p hbase
  have hproduct := (hlog.scale (signed inverse exponent)).divide unitsPerOne_pos
  have hvalue : inUnits base ^ inUnits (signed inverse exponent) =
      Real.exp (((signed inverse exponent : Int) : ℝ) *
        Real.log ((base : ℝ) / unitsPerOne) / unitsPerOne) := by
    rw [Real.rpow_def_of_pos (inUnits_pos hbase), inUnits, inUnits, Int.cast_natCast]
    congr 1
    ring
  rw [hvalue]
  exact brackets_expEnds hp hproduct

/-- A power is compared with a bound by whole powers. -/
theorem pow_le_pow_iff_le_rpow {bound x : ℝ} (hbound : 0 ≤ bound) (hx : 0 ≤ x) {one : Nat}
    (hone : one ≠ 0) (exponent : Nat) :
    bound ^ one ≤ x ^ exponent ↔ bound ≤ x ^ ((exponent : ℝ) / one) := by
  have hpow : (x ^ ((exponent : ℝ) / one)) ^ one = x ^ exponent := by
    rw [← Real.rpow_natCast, ← Real.rpow_mul hx, div_mul_cancel₀ _ (Nat.cast_ne_zero.2 hone),
      Real.rpow_natCast]
  rw [← hpow]
  exact pow_le_pow_iff_left₀ hbound (Real.rpow_nonneg hx _) hone

theorem bound_le_rpow_iff {bound one n d : Nat} (hone : one ≠ 0) (hd : d ≠ 0) (exponent : Nat) :
    bound ^ one * d ^ exponent ≤ n ^ exponent ↔
      (bound : ℝ) ≤ ((n : ℝ) / d) ^ ((exponent : ℝ) / one) := by
  have hd' : (0 : ℝ) < d := Nat.cast_pos.2 (Nat.pos_of_ne_zero hd)
  rw [← pow_le_pow_iff_le_rpow (Nat.cast_nonneg _) (by positivity) hone, div_pow,
    le_div_iff₀ (pow_pos hd' _)]
  exact_mod_cast Iff.rfl

theorem reaches_iff {bound one : Nat} (hbase : base ≠ 0) (hone : one ≠ 0) (inverse : Bool)
    (exponent : Nat) :
    reaches bound one base inverse exponent ↔
      (bound : ℝ) ≤ ((base : ℝ) / one) ^ (((signed inverse exponent : Int) : ℝ) / one) := by
  cases inverse with
  | false =>
      rw [reaches, if_neg Bool.false_ne_true, decide_eq_true_iff,
        bound_le_rpow_iff hone hone exponent]
      rfl
  | true =>
      have hvalue : ((base : ℝ) / one) ^ (((signed true exponent : Int) : ℝ) / one) =
          ((one : ℝ) / base) ^ ((exponent : ℝ) / one) := by
        rw [signed, if_pos rfl, Int.cast_neg, Int.cast_natCast, neg_div,
          Real.rpow_neg (by positivity), ← Real.inv_rpow (by positivity), inv_div]
      rw [reaches, if_pos rfl, decide_eq_true_iff, bound_le_rpow_iff hone hbase exponent, hvalue]

theorem hasRangeOf_settledPower (hbase : base ≠ 0) (inverse : Bool) (exponent : Nat) :
    HasRangeOf (settledPower base inverse exponent)
      (inUnits base ^ inUnits (signed inverse exponent)) := by
  have hbrackets := fun p => holds_power hbase inverse exponent (p := p)
  unfold settledPower
  split
  next x hx => exact hasRangeOf_settled (fun p hp => hbrackets p (four_le_of_mem_attempts hp)) hx
  · split
    next h => exact .of_le ((reaches_iff hbase unitsPerOne_ne_zero inverse exponent).1 h)
    next h =>
      refine (hbrackets lastAttempt (by decide)).hasRangeOf_fst (not_le.1 fun hle => h ?_)
      exact (reaches_iff hbase unitsPerOne_ne_zero inverse exponent).2 hle

/-- Past the limit of the powers that are written out, a base of at least two leaves the doubles. -/
theorem hasRangeOf_large (hbase : 2 * unitsPerOne ≤ base)
    (hexponent : exactLimit * unitsPerOne ≤ exponent) :
    HasRangeOf (if inverse then zero false else infinite false)
      (inUnits base ^ inUnits (signed inverse exponent)) := by
  have hone := real_unitsPerOne_pos
  have hx : 2 ≤ inUnits base := by
    rw [inUnits, le_div_iff₀ hone]
    exact_mod_cast hbase
  have hy : (exactLimit : ℝ) ≤ inUnits exponent := by
    rw [inUnits, le_div_iff₀ hone]
    exact_mod_cast hexponent
  cases inverse with
  | false =>
      refine .of_le ?_
      calc (overflowBound : ℝ) ≤ 2 ^ exactLimit := overflowBound_le_two_pow (by decide)
        _ ≤ inUnits base ^ exactLimit := pow_le_pow_left₀ two_pos.le hx _
        _ = inUnits base ^ (exactLimit : ℝ) := (Real.rpow_natCast _ _).symm
        _ ≤ inUnits base ^ inUnits exponent :=
            Real.rpow_le_rpow_of_exponent_le (one_le_two.trans hx) hy
  | true =>
      have hnegative : inUnits (signed true exponent) ≤ 0 := by
        refine div_nonpos_of_nonpos_of_nonneg (Int.cast_nonpos.2 ?_) hone.le
        exact Int.neg_nonpos_of_nonneg (Int.natCast_nonneg exponent)
      exact .of_lt rfl ((Real.rpow_le_one_of_one_le_of_nonpos (one_le_two.trans hx)
        hnegative).trans_lt one_lt_overflowBound)

/-- **The power of two magnitudes is infinite just where it is beyond the doubles.** -/
theorem hasRangeOf_magnitudePower (hbase : base ≠ 0) (inverse : Bool) (exponent : Nat) :
    HasRangeOf (magnitudePower base inverse exponent)
      (inUnits base ^ inUnits (signed inverse exponent)) := by
  unfold magnitudePower
  split
  next power h => exact hasRangeOf_exactPower hbase h
  split
  next h =>
    exact hasRangeOf_large h.1 h.2
  · exact hasRangeOf_settledPower hbase inverse exponent

/-! ### Powers of doubles -/

theorem isFinite_neg (x : Binary64) : x.neg.isFinite = x.isFinite := by cases x <;> rfl

theorem not_overflows_of_le {r : ℝ} (h : |r| ≤ 1) : ¬ Overflows r :=
  not_le.2 (h.trans_lt one_lt_overflowBound)

variable {below : Bool} {fits : Fits base} {fits' : Fits exponent}

/-- The magnitude of a power is the power of the magnitude, if there is one. -/
theorem abs_rpow_signed (h : below = false ∨ ∃ i : Int, inUnits (signed inverse exponent) = i) :
    |inUnits (signed below base) ^ inUnits (signed inverse exponent)| =
      inUnits base ^ inUnits (signed inverse exponent) := by
  rcases h with rfl | ⟨i, hi⟩
  · have hnonneg : 0 ≤ inUnits base := (abs_nonneg _).trans_eq (abs_inUnits_signed false base)
    exact abs_of_nonneg (Real.rpow_nonneg hnonneg _)
  · rw [hi, Real.rpow_intCast, Real.rpow_intCast, abs_zpow, abs_inUnits_signed]

/-- The power of two real numbers is not real, or it is beyond the doubles. -/
def PowerUndefined (p q : ℝ) : Prop := p < 0 ∧ (¬ ∃ i : Int, q = i) ∨ Overflows (p ^ q)

theorem not_powerUndefined_of_le {p q : ℝ} (hreal : 0 ≤ p ∨ ∃ i : Int, q = i)
    (hle : |p ^ q| ≤ 1) : ¬ PowerUndefined p q := by
  rintro (⟨hneg, hint⟩ | hover)
  · rcases hreal with hpos | hreal
    · exact absurd hneg (not_lt.2 hpos)
    · exact hint hreal
  · exact not_overflows_of_le hle hover

/-- A power that is real is undefined only if its magnitude is beyond the doubles. -/
theorem powerUndefined_iff (h : below = false ∨ ∃ i : Int, inUnits (signed inverse exponent) = i) :
    PowerUndefined (inUnits (signed below base)) (inUnits (signed inverse exponent)) ↔
      (overflowBound : ℝ) ≤ inUnits base ^ inUnits (signed inverse exponent) := by
  have hreal : ¬ (inUnits (signed below base) < 0 ∧
      ¬ ∃ i : Int, inUnits (signed inverse exponent) = i) := by
    rintro ⟨hneg, hint⟩
    rcases h with rfl | h
    · exact Bool.false_ne_true (inUnits_signed_neg_iff.1 hneg).1
    · exact hint h
  rw [PowerUndefined, or_iff_right hreal, Overflows, abs_rpow_signed h]

theorem isFinite_ite_neg (c : Prop) [Decidable c] (x : Binary64) :
    (if c then x.neg else x).isFinite = x.isFinite := by
  split
  · exact isFinite_neg x
  · rfl

/-- **The power of finite doubles is finite unless the base is negative and the exponent no integer,
or the power is beyond the doubles.** -/
theorem isFinite_pow_iff
    (h : ¬ (inUnits (signed below base) = 0 ∧ inUnits (signed inverse exponent) < 0)) :
    ((finite below base fits).pow (finite inverse exponent fits')).isFinite ↔
      ¬ PowerUndefined (inUnits (signed below base)) (inUnits (signed inverse exponent)) := by
  have hone : (ofInt 1).isFinite := isFinite_ofInt_of_le (by decide)
  unfold pow
  split
  next hsimple =>
    refine iff_of_true hone ?_
    rcases hsimple with hexponent | hbase
    · have hzero : inUnits (signed inverse exponent) = 0 :=
        inUnits_signed_eq_zero_iff.2 (beq_iff_eq.1 hexponent)
      rw [hzero]
      exact not_powerUndefined_of_le (.inr ⟨0, Int.cast_zero.symm⟩) (by simp)
    · have hvalue := value?_eq_int_iff.2 toInt?_one
      rw [← hbase, value?, Option.some.injEq, EReal.coe_eq_coe_iff, Int.cast_one] at hvalue
      rw [hvalue]
      exact not_powerUndefined_of_le (.inl zero_le_one) (by simp)
  next hsimple =>
    have hexponent : exponent ≠ 0 := fun hzero => hsimple (.inl (beq_iff_eq.2 hzero))
    dsimp only
    split
    next hbase =>
      have hzero : inUnits (signed below base) = 0 := inUnits_signed_eq_zero_iff.2 hbase
      have hinverse : ¬ inverse = true := fun hinverse =>
        h ⟨hzero, inUnits_signed_neg_iff.2 ⟨hinverse, hexponent⟩⟩
      rw [if_neg hinverse, hzero]
      refine iff_of_true rfl (not_powerUndefined_of_le (.inl le_rfl) ?_)
      rw [Real.zero_rpow (mt inUnits_signed_eq_zero_iff.1 hexponent), abs_zero]
      exact zero_le_one
    next hbase =>
      split
      next hnan =>
        obtain ⟨hbelow, hint⟩ := Bool.and_eq_true_iff.1 hnan
        rw [Bool.not_eq_true', ← Bool.not_eq_true, isIntegral_iff_value] at hint
        refine iff_of_false Bool.false_ne_true (not_not.2 (.inl ⟨?_, hint⟩))
        exact inUnits_signed_neg_iff.2 ⟨hbelow, hbase⟩
      next hreal =>
        have hreal' : below = false ∨ ∃ i : Int, inUnits (signed inverse exponent) = i := by
          rw [← isIntegral_iff_value fits']
          cases below with
          | false => exact .inl rfl
          | true => exact .inr (by simpa using hreal)
        rw [powerUndefined_iff hreal', not_le, isFinite_ite_neg]
        exact (hasRangeOf_magnitudePower hbase inverse exponent).isFinite_iff

end ReversePolish.Binary64
