import ReversePolish.Proofs.Binary64.Integral

/-! # Powers of integral doubles

For integral operands and an exponent that is not negative the power is never left to an enclosure:
it is the exact power, rounded once (`pow_integral`).  An exact power from `2^63` on therefore never
passes for one below, and this although base and exponent are rounded first
(`pow_lt_of_nearestOnGrid_pow_lt`). -/

namespace ReversePolish

attribute [local instance (high)] instPowNat

/-! ### The odd part -/

theorem twos_even {n : Nat} (hn : n ≠ 0) : twos (2 * n) = twos n + 1 := by
  rw [twos, if_neg (by omega), Nat.mul_div_cancel_left n (by decide)]

theorem twos_mul_two_pow {n : Nat} (hn : n ≠ 0) (k : Nat) : twos (n * 2 ^ k) = twos n + k := by
  induction k with
  | zero => simp
  | succ k ih =>
      have hne : n * 2 ^ k ≠ 0 := Nat.mul_ne_zero hn (Nat.ne_of_gt (Nat.two_pow_pos k))
      rw [Nat.pow_succ, ← Nat.mul_assoc, Nat.mul_comm _ 2, twos_even hne, ih, Nat.add_assoc]

theorem two_pow_twos_dvd (n : Nat) : 2 ^ twos n ∣ n := by
  fun_induction twos n with
  | case1 => simp
  | case2 n h ih =>
      rw [Nat.pow_succ]
      have hn : n = n / 2 * 2 := by omega
      conv => rhs; rw [hn]
      exact Nat.mul_dvd_mul_right ih 2

/-- What is left of a number without its twos. -/
def oddPart (n : Nat) : Nat := n / 2 ^ twos n

theorem oddPart_mul_two_pow_twos (n : Nat) : oddPart n * 2 ^ twos n = n :=
  Nat.div_mul_cancel (two_pow_twos_dvd n)

namespace Binary64

/-! ### Powers of magnitudes -/

theorem unitsPerOne_ne_zero : unitsPerOne ≠ 0 := Nat.ne_of_gt unitsPerOne_pos

theorem twos_mul_unitsPerOne {n : Nat} (hn : n ≠ 0) :
    twos (n * unitsPerOne) = twos n + unitPlaces := twos_mul_two_pow hn unitPlaces

theorem scaledPower_two_pow (n k : Nat) :
    scaledPower false n k = ofRatio false (n * 2 ^ k) := by
  change scaledPower false n (.ofNat k) = _
  rw [scaledPower, if_neg Bool.false_ne_true]

/-- The exact power, found by its odd part. -/
theorem exactPower?_integral {a b : Nat} (ha : a ≠ 0) (hb : b ≠ 0) :
    exactPower? (a * unitsPerOne) false (b * unitsPerOne) =
      integralPower? (oddPart a) (twos a) false b := by
  have hbase : a * unitsPerOne / 2 ^ (twos a + unitPlaces) = oddPart a := by
    rw [Nat.pow_add]
    exact Nat.mul_div_mul_right _ _ unitsPerOne_pos
  have hexponent : b * unitsPerOne / 2 ^ unitPlaces = b :=
    Nat.mul_div_cancel b unitsPerOne_pos
  have htwos : ((twos a + unitPlaces : Nat) : Int) - unitPlaces = twos a := by omega
  simp only [exactPower?, twos_mul_unitsPerOne ha, twos_mul_unitsPerOne hb]
  rw [Nat.min_eq_right (Nat.le_add_left _ _), Nat.sub_self, exactRoots?, hbase, hexponent, htwos]
  rfl

theorem oddPart_pow_mul (a b : Nat) : oddPart a ^ b * 2 ^ (twos a * b) = a ^ b := by
  rw [Nat.pow_mul, ← Nat.mul_pow, oddPart_mul_two_pow_twos]

theorem ofRatio_eq_infinite (negative : Bool) {n k : Nat} (hk : 1024 ≤ k) (h : 2 ^ k ≤ n) :
    ofRatio negative n = infinite negative := by
  have hgrid : spacing unitsLimit ∣ unitsLimit := by
    have := spacing_dvd_mul (k := 1) (1024 + unitPlaces) (by decide)
    rwa [Nat.one_mul] at this
  have hlimit : unitsLimit * 1 ≤ n * unitsPerOne :=
    calc unitsLimit * 1 = 2 ^ (1024 + unitPlaces) := Nat.mul_one _
      _ ≤ 2 ^ (k + unitPlaces) := Nat.pow_le_pow_right Nat.two_pos (Nat.add_le_add_right hk _)
      _ = 2 ^ k * unitsPerOne := Nat.pow_add ..
      _ ≤ n * unitsPerOne := Nat.mul_le_mul_right _ h
  rw [ofRatio, ofUnits, dif_neg (Nat.not_lt.2 (le_nearestOnGrid (by decide) hgrid hlimit))]

theorem powerOfTwo_natCast (k : Nat) : powerOfTwo k = ofRatio false (2 ^ k) := by
  unfold powerOfTwo
  split
  next hlarge => exact (ofRatio_eq_infinite false (Int.ofNat_le.1 hlarge) (Nat.le_refl _)).symm
  · rw [if_neg (by omega), scaledPower_two_pow, Nat.one_mul]

theorem two_le_of_oddPart_ne_one {a : Nat} (ha : a ≠ 0) (h : oddPart a ≠ 1) : 2 ≤ a := by
  rcases Nat.lt_or_ge a 2 with hlt | hge
  · obtain rfl : a = 1 := by omega
    exact absurd (by simp [oddPart, twos]) h
  · exact hge

/-- An exact power by the odd part of its base; a large exponent leaves none. -/
theorem integralPower?_oddPart {a : Nat} (ha : a ≠ 0) (b : Nat) :
    integralPower? (oddPart a) (twos a) false b = some (ofRatio false (a ^ b)) ∨
      integralPower? (oddPart a) (twos a) false b = none ∧ 2 ≤ a ∧ exactLimit ≤ b := by
  have hpower := oddPart_pow_mul a b
  have hcast : (twos a : Int) * b = (twos a * b : Nat) := (Int.natCast_mul _ _).symm
  unfold integralPower?
  by_cases hodd : oddPart a = 1
  · -- a power of two, whose powers are written out at any size
    rw [hodd, Nat.one_pow, Nat.one_mul] at hpower
    rw [if_pos hodd, if_neg Bool.false_ne_true, hcast, ← hpower, powerOfTwo_natCast]
    exact .inl rfl
  · rw [if_neg hodd]
    by_cases hexact : b ≤ exactLimit
    · rw [if_pos hexact, hcast, scaledPower_two_pow, hpower]
      exact .inl rfl
    · rw [if_neg hexact]
      exact .inr ⟨rfl, two_le_of_oddPart_ne_one ha hodd, Nat.le_of_not_le hexact⟩

theorem magnitudePower_of_some {base exponent : Nat} {inverse : Bool} {power : Binary64}
    (h : exactPower? base inverse exponent = some power) :
    magnitudePower base inverse exponent = power := by
  simp only [magnitudePower, h]

theorem magnitudePower_of_none {base exponent : Nat} (h : exactPower? base false exponent = none)
    (hbase : 2 * unitsPerOne ≤ base) (hexponent : exactLimit * unitsPerOne ≤ exponent) :
    magnitudePower base false exponent = infinite false := by
  simp only [magnitudePower, h, if_pos (And.intro hbase hexponent), Bool.false_eq_true, if_false]

/-- The power of integral magnitudes is rounded once. -/
theorem magnitudePower_integral {a b : Nat} (ha : a ≠ 0) (hb : b ≠ 0) :
    magnitudePower (a * unitsPerOne) false (b * unitsPerOne) = ofRatio false (a ^ b) := by
  have hexact := exactPower?_integral ha hb
  rcases integralPower?_oddPart ha b with h | ⟨h, hbase, hexponent⟩
  · exact magnitudePower_of_some (hexact.trans h)
  · rw [magnitudePower_of_none (hexact.trans h) (Nat.mul_le_mul_right _ hbase)
      (Nat.mul_le_mul_right _ hexponent)]
    exact (ofRatio_eq_infinite false (Nat.le_trans (by decide) hexponent)
      (Nat.pow_le_pow_left hbase b)).symm

/-! ### Powers of integral doubles -/

theorem neg_ofRatio (negative : Bool) (n d : Nat) :
    (ofRatio negative n d).neg = ofRatio (!negative) n d := by
  unfold ofRatio ofUnits
  split <;> rfl

theorem abs_ofRatio (negative : Bool) (n d : Nat) :
    (ofRatio negative n d).abs = ofRatio false n d := by
  unfold ofRatio ofUnits
  split <;> rfl

theorem toInt?_one : (ofInt 1).toInt? = some 1 := by decide +kernel

theorem ofRatio_zero (negative : Bool) : ofRatio negative 0 = zero negative := by
  cases negative <;> decide +kernel

section Integral

variable {negative : Bool} {k : Nat} {fits : Fits (k * unitsPerOne)}

theorem isZero_integral : (finite negative (k * unitsPerOne) fits).isZero ↔ k = 0 := by
  rw [isZero, beq_iff_eq, Nat.mul_eq_zero, or_iff_left unitsPerOne_ne_zero]

theorem isOdd_integral :
    (finite false (k * unitsPerOne) fits).isOdd = decide (k % 2 = 1) := by
  rw [isOdd, toInt?_finite, Option.any_some]
  exact decide_eq_decide.2 (by simp only [signed, Bool.false_eq_true, if_false]; omega)

theorem integral_eq_one (h : finite negative (k * unitsPerOne) fits = ofInt 1) :
    negative = false ∧ k = 1 := by
  have htoInt := congrArg toInt? h
  rw [toInt?_one, toInt?_finite, Option.some.injEq] at htoInt
  cases negative with
  | false => exact ⟨rfl, Int.ofNat.inj htoInt⟩
  | true =>
      simp only [signed, if_true] at htoInt
      omega

end Integral

/-- **The power of integral doubles is the exact power, rounded once.** -/
theorem pow_integral (negative : Bool) {a b : Nat} (fits : Fits (a * unitsPerOne))
    (fits' : Fits (b * unitsPerOne)) :
    (finite negative (a * unitsPerOne) fits).pow (finite false (b * unitsPerOne) fits') =
      ofRatio (negative && b % 2 = 1) (a ^ b) := by
  have hintegral : (finite false (b * unitsPerOne) fits').isIntegral = true :=
    isIntegral_iff.2 ⟨_, toInt?_finite false b fits'⟩
  unfold pow
  split
  next hsimple =>
    rcases hsimple with hexponent | hbase
    · obtain rfl := isZero_integral.1 hexponent
      simp [ofInt]
    · obtain ⟨rfl, rfl⟩ := integral_eq_one hbase
      simp [ofInt]
  next hsimple =>
    have hb : b ≠ 0 := fun hb => hsimple (.inl (isZero_integral.2 hb))
    simp only [isNegative, isOdd_integral, hintegral, Bool.not_true, Bool.and_false,
      Bool.false_eq_true, if_false, Nat.mul_eq_zero, unitsPerOne_ne_zero, or_false]
    by_cases ha : a = 0
    · rw [if_pos ha, ha, Nat.zero_pow (Nat.pos_of_ne_zero hb), ofRatio_zero]
    · rw [if_neg ha, magnitudePower_integral ha hb, neg_ofRatio]
      cases negative && decide (b % 2 = 1) with
      | true => rw [if_pos rfl, Bool.not_false]
      | false => rw [if_neg Bool.false_ne_true]

/-- The power of two integers as doubles. -/
theorem pow_ofInt {a : Int} {n : Nat} (ha : (ofInt a).isFinite) (hn : (ofInt n).isFinite) :
    (ofInt a).pow (ofInt n) = ofRatio (a < 0 && nearestOnGrid n 1 % 2 = 1)
      (nearestOnGrid a.natAbs 1 ^ nearestOnGrid n 1) := by
  obtain ⟨fits, hbase⟩ := ofInt_eq_finite ha
  obtain ⟨fits', hexponent⟩ := ofInt_eq_finite hn
  have hsign : decide ((n : Int) < 0) = false := decide_eq_false (by omega)
  simp only [hbase, hexponent, hsign, Int.natAbs_natCast]
  exact pow_integral _ fits fits'

/-! ### Rounding the base and the exponent -/

/-- An integer of at most 53 binary digits is its own rounding. -/
theorem nearestOnGrid_of_le_significand {k : Nat} (h : k ≤ 2 ^ (53 : Nat)) :
    nearestOnGrid k 1 = k := by
  have := nearestOnGrid_of_le 0 h
  rwa [Nat.pow_zero, Nat.mul_one] at this

theorem le_nearestOnGrid_significand {g k : Nat} (hg : g ≤ 2 ^ (53 : Nat)) (h : g ≤ k) :
    g ≤ nearestOnGrid k 1 := by
  have hspacing : spacing (g * 2 ^ 0) ∣ g * 2 ^ 0 := spacing_dvd_mul 0 hg
  rw [Nat.pow_zero, Nat.mul_one] at hspacing
  exact le_nearestOnGrid (by decide) hspacing (by rwa [Nat.mul_one])

theorem two_pow_64_le_of_exponent {a n : Nat} (ha : 2 ≤ a) (hn : 2 ^ (53 : Nat) ≤ n) :
    2 ^ (64 : Nat) ≤ a ^ n :=
  Nat.le_trans (Nat.pow_le_pow_right (by decide) (Nat.le_trans (by decide) hn))
    (Nat.pow_le_pow_left ha n)

theorem two_pow_64_le_of_base {a n : Nat} (ha : 2 ^ (53 : Nat) ≤ a) (hn : 2 ≤ n) :
    2 ^ (64 : Nat) ≤ a ^ n :=
  calc 2 ^ (64 : Nat) ≤ (2 ^ (53 : Nat)) ^ (2 : Nat) := by decide
    _ ≤ a ^ 2 := Nat.pow_le_pow_left ha 2
    _ ≤ a ^ n := Nat.pow_le_pow_right (Nat.le_trans (by decide) ha) hn

/-- An exponent that has to be rounded is too large for any base, a base that has to be rounded too
large for any exponent but one. -/
theorem rounded_power_cases {a n : Nat} (hn : 2 ≤ n) :
    a ≤ 1 ∨ nearestOnGrid a 1 = a ∧ nearestOnGrid n 1 = n ∨
      2 ^ (64 : Nat) ≤ nearestOnGrid a 1 ^ nearestOnGrid n 1 ∧ 2 ^ (64 : Nat) ≤ a ^ n := by
  rcases Nat.lt_or_ge 1 a with ha | ha
  · have ha' : 2 ≤ nearestOnGrid a 1 := le_nearestOnGrid_significand (by decide) ha
    have hn' : 2 ≤ nearestOnGrid n 1 := le_nearestOnGrid_significand (by decide) hn
    rcases Nat.le_total n (2 ^ (53 : Nat)) with hsmall | hlarge
    · rcases Nat.le_total a (2 ^ (53 : Nat)) with hsmall' | hlarge'
      · exact .inr (.inl ⟨nearestOnGrid_of_le_significand hsmall',
          nearestOnGrid_of_le_significand hsmall⟩)
      · have hrounded := le_nearestOnGrid_significand (Nat.le_refl _) hlarge'
        exact .inr (.inr ⟨two_pow_64_le_of_base hrounded hn', two_pow_64_le_of_base hlarge' hn⟩)
    · have hrounded := le_nearestOnGrid_significand (Nat.le_refl _) hlarge
      exact .inr (.inr ⟨two_pow_64_le_of_exponent ha' hrounded,
        two_pow_64_le_of_exponent ha hlarge⟩)
  · exact .inl ha

/-- If the power of the roundings is below `2^63`, so is the power itself. -/
theorem pow_lt_of_nearestOnGrid_pow_lt {a n : Nat}
    (h : nearestOnGrid a 1 ^ nearestOnGrid n 1 < 2 ^ (63 : Nat)) : a ^ n < 2 ^ (63 : Nat) := by
  rcases Nat.lt_or_ge n 2 with hsmall | hn
  · have hn := Nat.le_trans (Nat.le_of_lt hsmall) (by decide : 2 ≤ 2 ^ (53 : Nat))
    rw [nearestOnGrid_of_le_significand hn] at h
    obtain rfl | rfl : n = 0 ∨ n = 1 := by omega
    · rw [Nat.pow_zero]
      decide
    · rw [Nat.pow_one] at h ⊢
      exact Nat.lt_of_not_le fun hge => Nat.not_lt_of_le (le_nearestOnGrid_cell hge) h
  · rcases rounded_power_cases (a := a) hn with ha | ⟨ha, hn'⟩ | ⟨hlarge, -⟩
    · calc a ^ n ≤ 1 ^ n := Nat.pow_le_pow_left ha n
        _ = 1 := Nat.one_pow n
        _ < 2 ^ (63 : Nat) := by decide
    · rwa [ha, hn'] at h
    · omega

end Binary64

end ReversePolish
