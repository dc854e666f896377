import ReversePolish.Proofs.Evaluation.Integers
import ReversePolish.Proofs.Number.ExactPower

/-! # Powers of integers

An integer is raised to an integer twice: as doubles, and exactly if the rounded power is within a
cell.  That decides well for every exponent but one.  No other power lies close to the ends of the
cells, except the ends themselves (`power_gap`), so that one which fits rounds to a magnitude below
`2^63` or is `-2^63`, and one which does not fit rounds to a magnitude above (`rounded_power_gap`).

The first power is the base itself, and the last 512 magnitudes below `2^63` round up to it.  Such
a base does not come out exactly: a positive one becomes the double `2^63`, a negative one the
least integer of a cell.  These are all (`evaluate_pow`). -/

namespace ReversePolish

attribute [local instance (high)] instPowNat

/-! ### Powers close to the ends of the cells -/

/-- The greatest number with a power below `bound`, by its binary digits from the highest down. -/
def rootBelow (bound exponent : Nat) : Nat :=
  (List.range 32).foldr (fun place root =>
    if (root + 2 ^ place) ^ exponent < bound then root + 2 ^ place else root) 0

/-- What follows the roots of `2^63 - 512` has a power past `2^63 + 1024`, or the power `2^63`. -/
theorem rootBelow_gap : ∀ n < 64, 2 ≤ n →
    rootBelow (2 ^ (63 : Nat) - 512) n ^ n < 2 ^ (63 : Nat) - 512 ∧
      (2 ^ (63 : Nat) + 1024 < (rootBelow (2 ^ (63 : Nat) - 512) n + 1) ^ n ∨
        (rootBelow (2 ^ (63 : Nat) - 512) n + 1) ^ n = 2 ^ (63 : Nat) ∧
          2 ^ (63 : Nat) + 1024 < (rootBelow (2 ^ (63 : Nat) - 512) n + 2) ^ n) := by
  decide +kernel

/-- No square or higher power lies close to `2^63`, except `2^63` itself. -/
theorem power_gap (a : Nat) {n : Nat} (hn : 2 ≤ n) :
    a ^ n < 2 ^ (63 : Nat) - 512 ∨ a ^ n = 2 ^ (63 : Nat) ∨ 2 ^ (63 : Nat) + 1024 < a ^ n := by
  rcases Nat.lt_or_ge n 64 with hsmall | hlarge
  · -- a power grows with its base, so the bases next to the root decide
    obtain ⟨hbelow, habove⟩ := rootBelow_gap n hsmall hn
    generalize rootBelow (2 ^ (63 : Nat) - 512) n = root at hbelow habove
    rcases Nat.lt_trichotomy a (root + 1) with hlt | rfl | hgt
    · exact .inl (Nat.lt_of_le_of_lt (Nat.pow_le_pow_left (Nat.le_of_lt_succ hlt) n) hbelow)
    · exact .inr (habove.symm.imp And.left id)
    · have hroot := Nat.pow_le_pow_left (Nat.le_of_lt hgt) n
      have hnext : (root + 2) ^ n ≤ a ^ n := Nat.pow_le_pow_left hgt n
      omega
  · -- even two has a power past the end of the cells
    rcases Nat.lt_or_ge a 2 with ha | ha
    · have hone := Nat.pow_le_pow_left (Nat.le_of_lt_succ ha) n
      rw [Nat.one_pow] at hone
      exact .inl (Nat.lt_of_le_of_lt hone (by decide))
    · have := Nat.le_trans (Nat.pow_le_pow_right (by decide) hlarge) (Nat.pow_le_pow_left ha n)
      exact .inr (.inr (Nat.lt_of_lt_of_le (by decide) this))

namespace Binary64

/-- The last 512 integers below `2^63` round up to it. -/
theorem cell_le_nearestOnGrid_iff {k : Nat} :
    2 ^ (63 : Nat) ≤ nearestOnGrid k 1 ↔ 2 ^ (63 : Nat) - 512 ≤ k := by
  have h := two_pow_le_nearestOnGrid_iff (n := k) (d := 1) 9 Nat.one_pos
  rwa [Nat.mul_one] at h

theorem nearestOnGrid_cell : nearestOnGrid (2 ^ (63 : Nat)) 1 = 2 ^ (63 : Nat) :=
  nearestOnGrid_just_beyond (Nat.le_refl _) (by decide)

/-- Rounding twice is rounding once. -/
theorem nearestOnGrid_nearestOnGrid (k : Nat) :
    nearestOnGrid (nearestOnGrid k 1) 1 = nearestOnGrid k 1 := by
  have := nearestOnGrid_of_dvd Nat.one_pos (spacing_dvd_nearestOnGrid k 1)
  rwa [Nat.mul_one] at this

/-- The power of a base and an exponent that are rounded first. -/
def roundedPower (a n : Nat) : Nat := nearestOnGrid a 1 ^ nearestOnGrid n 1

/-- **A square or higher power that is rounded lies on the side of the exact one.** -/
theorem rounded_power_gap (a : Nat) {n : Nat} (hn : 2 ≤ n) :
    nearestOnGrid (roundedPower a n) 1 < 2 ^ (63 : Nat) ∧ a ^ n < 2 ^ (63 : Nat) ∨
      nearestOnGrid (roundedPower a n) 1 = 2 ^ (63 : Nat) ∧ a ^ n = 2 ^ (63 : Nat) ∧
        nearestOnGrid n 1 = n ∨
      2 ^ (63 : Nat) < nearestOnGrid (roundedPower a n) 1 ∧ 2 ^ (63 : Nat) < a ^ n := by
  rcases rounded_power_cases (a := a) hn with ha | ⟨ha, hn'⟩ | ⟨hrounded, hexact⟩
  · have hpow (m : Nat) : a ^ m ≤ 1 := by
      have := Nat.pow_le_pow_left ha m
      rwa [Nat.one_pow] at this
    have hbase := nearestOnGrid_of_le_significand (Nat.le_trans ha (by decide))
    refine .inl ⟨Nat.lt_of_not_le fun hle => ?_, Nat.lt_of_le_of_lt (hpow n) (by decide)⟩
    rw [cell_le_nearestOnGrid_iff, roundedPower, hbase] at hle
    have := hpow (nearestOnGrid n 1)
    omega
  · rw [roundedPower, ha, hn']
    rcases power_gap a hn with hlt | heq | hgt
    · refine .inl ⟨Nat.lt_of_not_le fun hle => ?_, by omega⟩
      have := cell_le_nearestOnGrid_iff.1 hle
      omega
    · exact .inr (.inl ⟨heq ▸ nearestOnGrid_cell, heq, rfl⟩)
    · exact .inr (.inr ⟨lt_nearestOnGrid_beyond hgt, by omega⟩)
  · refine .inr (.inr ⟨lt_nearestOnGrid_beyond ?_, by omega⟩)
    rw [roundedPower]
    omega

end Binary64

/-! ### Operands that are cells -/

/-- The power of two integers taken as doubles, before it is rounded. -/
def approximatePower (a : Int) (n : Nat) : Binary64 :=
  .ofRatio (a < 0 && Binary64.nearestOnGrid n 1 % 2 = 1) (Binary64.roundedPower a.natAbs n)

theorem toInt?_approximatePower {a : Int} {n : Nat} (h : (approximatePower a n).isFinite) :
    (approximatePower a n).toInt? =
      some (Binary64.signed (a < 0 && Binary64.nearestOnGrid n 1 % 2 = 1)
        (Binary64.nearestOnGrid (Binary64.roundedPower a.natAbs n) 1)) :=
  Binary64.toInt?_ofRatio h

namespace Number

open Binary64

variable {a : Int} {n : Nat}

theorem asDouble_of_le {i : Int} (h : i.natAbs ≤ 2 ^ (63 : Nat)) :
    (integer i).asDouble = .ok (ofInt i) := by
  have hfinite := isFinite_ofInt_of_le (Nat.le_trans h (by decide))
  rw [asDouble, if_pos hfinite]

theorem power_of_ok {b c : Number} {x y : Binary64} (hb : b.asDouble = .ok x)
    (hc : c.asDouble = .ok y) :
    power b c = checked (x.isFinite && y.isFinite) (x.isFinite && y.isFinite) (x.pow y) := by
  rw [power, hb, hc]
  rfl

theorem power_integers (ha : a.natAbs ≤ 2 ^ (63 : Nat)) (hn : n ≤ 2 ^ (63 : Nat)) :
    power (integer a) (integer n) = checked true true (approximatePower a n) := by
  have hbase := isFinite_ofInt_of_le (Nat.le_trans ha (by decide))
  have hexponent := isFinite_ofInt_of_le (i := n) (Nat.le_trans hn (by decide))
  rw [power_of_ok (asDouble_of_le ha) (asDouble_of_le (i := n) hn), pow_ofInt hbase hexponent,
    hbase, hexponent, Bool.and_self, approximatePower, roundedPower]

/-- The rounded power decides between itself and the exact one. -/
theorem pow_integers (ha : a.natAbs ≤ 2 ^ (63 : Nat)) (hn : n ≤ 2 ^ (63 : Nat)) :
    pow (integer a) (integer n) = (checked true true (approximatePower a n)).map fun x =>
      if withinCell x then integer (a ^ n) else double x := by
  have hsign : (integer n).lt (integer 0) = false := by
    rw [← Bool.not_eq_true, integer_lt_zero]
    omega
  have hexponent : decide (0 ≤ (n : Int)) = true := decide_eq_true (Int.natCast_nonneg n)
  rw [pow, hsign, Bool.and_false, if_neg Bool.false_ne_true, power_integers ha hn]
  cases checked true true (approximatePower a n) with
  | error failure => rfl
  | ok x =>
      simp only [hexponent, Bool.true_and, Int.toNat_natCast, integralPower_eq]
      change (if withinCell x = true then .ok (integer (a ^ n)) else .ok (double x)) =
        Except.ok (if withinCell x = true then integer (a ^ n) else double x)
      split <;> rfl

theorem checked_of_isFinite {x : Binary64} (h : x.isFinite) : checked true true x = .ok x := by
  cases x with
  | finite negative units fits => rfl
  | _ => cases h

/-- A rounded power below `2^63` is the one that is multiplied out. -/
theorem multipliesOut_iff_rounded (ha : a.natAbs ≤ 2 ^ (63 : Nat)) (hn : n ≤ 2 ^ (63 : Nat)) :
    MultipliesOut a n ↔ nearestOnGrid (roundedPower a.natAbs n) 1 < 2 ^ (63 : Nat) := by
  constructor
  · intro h
    obtain ⟨x, hpower, hcell⟩ := h.within
    rw [power_integers ha hn] at hpower
    rw [checked_ok hpower] at hcell
    exact (withinCell_ofRatio_iff _ _).1 hcell
  · intro h
    have hfinite := isFinite_ofRatio_of_grid (Nat.le_of_lt h)
      (a < 0 && nearestOnGrid n 1 % 2 = 1)
    refine ⟨Int.natCast_nonneg n, approximatePower a n, ?_, (withinCell_ofRatio_iff _ _).2 h⟩
    rw [power_integers ha hn]
    exact checked_of_isFinite hfinite

theorem pow_of_lt (ha : a.natAbs ≤ 2 ^ (63 : Nat)) (hn : n ≤ 2 ^ (63 : Nat))
    (h : nearestOnGrid (roundedPower a.natAbs n) 1 < 2 ^ (63 : Nat)) :
    pow (integer a) (integer n) = .ok (integer (a ^ n)) := by
  have hout := (multipliesOut_iff_rounded ha hn).2 h
  rw [hout.pow_eq, Int.toNat_natCast]

/-- Any other is the result itself, if it is finite. -/
theorem pow_of_le (ha : a.natAbs ≤ 2 ^ (63 : Nat)) (hn : n ≤ 2 ^ (63 : Nat))
    (h : 2 ^ (63 : Nat) ≤ nearestOnGrid (roundedPower a.natAbs n) 1)
    (hfinite : (approximatePower a n).isFinite) :
    pow (integer a) (integer n) = .ok (double (approximatePower a n)) := by
  have hcell := mt (withinCell_ofRatio_iff (a < 0 && nearestOnGrid n 1 % 2 = 1) _).1
    (Nat.not_lt.2 h)
  rw [pow_integers ha hn, checked_of_isFinite hfinite, Except.map, approximatePower, if_neg hcell]

theorem pow_of_infinite (ha : a.natAbs ≤ 2 ^ (63 : Nat)) (hn : n ≤ 2 ^ (63 : Nat))
    (h : ¬ (approximatePower a n).isFinite) :
    pow (integer a) (integer n) = .error (.trouble .overflow) := by
  have hinfinite := eq_infinite_of_not_finite h
  rw [pow_integers ha hn, approximatePower, hinfinite]
  rfl

end Number

/-- The sign of a power. -/
theorem decide_pow_neg (a : Int) (n : Nat) :
    (decide (a < 0) && decide (n % 2 = 1)) = decide (a ^ n < 0) := by
  rw [← Bool.decide_and, decide_eq_decide]
  by_cases hodd : n % 2 = 1
  · exact (and_iff_left hodd).trans (Nat.odd_iff.2 hodd).pow_neg_iff.symm
  · have hnonneg : 0 ≤ a ^ n := (Nat.not_odd_iff_even.1 (mt Nat.odd_iff.1 hodd)).pow_nonneg a
    exact iff_of_false (fun h => hodd h.2) (Int.not_lt.2 hnonneg)

/-- The least integer of a cell. -/
def Cell.least : Cell := ⟨cellMin, Int.le_refl _, by decide⟩

theorem Cell.eq_least {c : Cell} (h : c.value = cellMin) : c = least := by
  cases c
  cases h
  rfl

section Power

open Binary64 (nearestOnGrid roundedPower)

variable {b e : Cell} {n : Nat}

theorem evaluate_pow_eq (he : e.value = n) : evaluate .pow [.integer b, .integer e] =
    ((Number.pow (.integer b.value) (.integer n)).bind Token.ofNumber).mapError
      (Failure.reported .pow) := by
  rw [← he]
  rfl

theorem exponent_le (he : e.value = n) : n ≤ 2 ^ (63 : Nat) := by
  have := e.natAbs_le
  rwa [he, Int.natAbs_natCast] at this

theorem evaluate_pow_within (he : e.value = n)
    (h : nearestOnGrid (roundedPower b.value.natAbs n) 1 < 2 ^ (63 : Nat)) {c : Cell}
    (hc : c.value = b.value ^ n) : evaluate .pow [.integer b, .integer e] = .ok (.integer c) := by
  rw [evaluate_pow_eq he, Number.pow_of_lt b.natAbs_le (exponent_le he) h]
  change (Token.ofInt (b.value ^ n)).mapError _ = _
  rw [← hc, Token.ofInt_of_fits ⟨c.min_le, c.le_max⟩]
  rfl

theorem evaluate_pow_of_le (he : e.value = n)
    (h : 2 ^ (63 : Nat) ≤ nearestOnGrid (roundedPower b.value.natAbs n) 1)
    (hfinite : (approximatePower b.value n).isFinite) :
    evaluate .pow [.integer b, .integer e] =
      (Token.ofDouble (approximatePower b.value n)).mapError (Failure.reported .pow) := by
  rw [evaluate_pow_eq he, Number.pow_of_le b.natAbs_le (exponent_le he) h hfinite, Except.bind,
    Token.ofNumber]

/-- A magnitude of `2^63` is an end of the cells or the first integer past the other. -/
theorem evaluate_pow_end (he : e.value = n)
    (h : nearestOnGrid (roundedPower b.value.natAbs n) 1 = 2 ^ (63 : Nat))
    (hn : nearestOnGrid n 1 = n) :
    evaluate .pow [.integer b, .integer e] =
      .ok (if b.value ^ n < 0 then .integer .least else .float (.ofInt 9223372036854775808)) := by
  have hfinite : (approximatePower b.value n).isFinite :=
    Binary64.isFinite_ofRatio_of_grid (Nat.le_of_eq h) _
  have hvalue := toInt?_approximatePower hfinite
  rw [h, hn, decide_pow_neg] at hvalue
  rw [evaluate_pow_of_le he (Nat.le_of_eq h.symm) hfinite]
  by_cases hsign : b.value ^ n < 0
  · rw [decide_eq_true hsign] at hvalue
    rw [if_pos hsign, Token.ofDouble_of_fits hvalue (by decide)]
    rfl
  · rw [decide_eq_false hsign] at hvalue
    have hdouble : .ofInt 9223372036854775808 = approximatePower b.value n :=
      Binary64.ofInt_of_toInt? hvalue (by decide)
    rw [if_neg hsign, Token.ofDouble_of_not_fits hvalue (by decide), hdouble]
    rfl

theorem evaluate_pow_least (he : e.value = n)
    (h : nearestOnGrid (roundedPower b.value.natAbs n) 1 = 2 ^ (63 : Nat))
    (hn : nearestOnGrid n 1 = n) {c : Cell} (hc : c.value = b.value ^ n)
    (hleast : b.value ^ n = cellMin) :
    evaluate .pow [.integer b, .integer e] = .ok (.integer c) := by
  rw [evaluate_pow_end he h hn, hleast, if_pos (by decide), Cell.eq_least (hc.trans hleast)]

/-- A magnitude above `2^63` is no integer of a cell. -/
theorem evaluate_pow_beyond (he : e.value = n)
    (h : 2 ^ (63 : Nat) < nearestOnGrid (roundedPower b.value.natAbs n) 1) :
    (∃ x, evaluate .pow [.integer b, .integer e] = .ok (.float x)) ∨
      evaluate .pow [.integer b, .integer e] = .error (.fault (.undefined .pow)) := by
  by_cases hfinite : (approximatePower b.value n).isFinite
  · have hvalue := toInt?_approximatePower hfinite
    refine .inl ⟨approximatePower b.value n, ?_⟩
    rw [evaluate_pow_of_le he (Nat.le_of_lt h) hfinite, Token.ofDouble_of_not_fits hvalue]
    · rfl
    · rw [cellMin, cellMax, Binary64.signed]
      split <;> omega
  · refine .inr ?_
    rw [evaluate_pow_eq he, Number.pow_of_infinite b.natAbs_le (exponent_le he) hfinite]
    rfl

/-- The first power of a base that rounds to an end of the cells without being it. -/
def RoundsToEnd (b : Cell) (n : Nat) : Prop :=
  n = 1 ∧ 2 ^ (63 : Nat) - 512 ≤ b.value.natAbs ∧ b.value ≠ cellMin

theorem nearestOnGrid_one : nearestOnGrid 1 1 = 1 :=
  Binary64.nearestOnGrid_of_le_significand (by decide)

theorem roundedPower_zero (a : Nat) : nearestOnGrid (roundedPower a 0) 1 = 1 := by
  have hzero : nearestOnGrid 0 1 = 0 := Binary64.nearestOnGrid_of_le_significand (Nat.zero_le _)
  rw [roundedPower, hzero, Nat.pow_zero, nearestOnGrid_one]

theorem roundedPower_one (a : Nat) : nearestOnGrid (roundedPower a 1) 1 = nearestOnGrid a 1 := by
  rw [roundedPower, nearestOnGrid_one, Nat.pow_one, Binary64.nearestOnGrid_nearestOnGrid]

/-- Such a base comes out as the end it rounds to. -/
theorem evaluate_pow_rounded (he : e.value = n) (h : RoundsToEnd b n) :
    evaluate .pow [.integer b, .integer e] =
      .ok (if b.value < 0 then .integer .least else .float (.ofInt 9223372036854775808)) := by
  obtain ⟨rfl, hend, -⟩ := h
  have hgrid : nearestOnGrid b.value.natAbs 1 = 2 ^ (63 : Nat) := by
    refine Nat.le_antisymm ?_ (Binary64.cell_le_nearestOnGrid_iff.2 hend)
    exact Binary64.nearestOnGrid_le_of_le Nat.one_pos (by decide +kernel) (by
      rw [Nat.mul_one]
      exact b.natAbs_le)
  have hresult := evaluate_pow_end he ((roundedPower_one _).trans hgrid) nearestOnGrid_one
  rwa [Int.pow_one] at hresult

/-- Any other power that fits a cell comes out exactly. -/
theorem evaluate_pow_exact (he : e.value = n) (h : ¬ RoundsToEnd b n) {c : Cell}
    (hc : c.value = b.value ^ n) : evaluate .pow [.integer b, .integer e] = .ok (.integer c) := by
  obtain rfl | rfl | hn : n = 0 ∨ n = 1 ∨ 2 ≤ n := by omega
  · exact evaluate_pow_within he (by rw [roundedPower_zero]; decide) hc
  · by_cases hend : 2 ^ (63 : Nat) - 512 ≤ b.value.natAbs
    · have hleast : b.value = cellMin := by_contra fun hne => h ⟨rfl, hend, hne⟩
      have hgrid : nearestOnGrid b.value.natAbs 1 = 2 ^ (63 : Nat) := by
        rw [hleast]
        exact Binary64.nearestOnGrid_cell
      exact evaluate_pow_least he ((roundedPower_one _).trans hgrid) nearestOnGrid_one hc
        (by rw [Int.pow_one, hleast])
    · refine evaluate_pow_within he ?_ hc
      rw [roundedPower_one]
      exact Nat.lt_of_not_le (mt Binary64.cell_le_nearestOnGrid_iff.1 hend)
  · rcases Binary64.rounded_power_gap b.value.natAbs hn with
      ⟨hlt, -⟩ | ⟨hend, hpow, hn'⟩ | ⟨-, hgt⟩
    · exact evaluate_pow_within he hlt hc
    · refine evaluate_pow_least he hend hn' hc ?_
      have hmax := c.le_max
      rw [← Int.natAbs_pow] at hpow
      rw [hc, cellMax] at hmax
      rw [cellMin]
      omega
    · have hle := c.natAbs_le
      rw [hc, Int.natAbs_pow] at hle
      exact absurd hgt (Nat.not_lt.2 hle)

/-- A power that does not fit a cell does not come out as an integer. -/
theorem evaluate_pow_unfit (he : e.value = n) (h : ∀ c : Cell, c.value ≠ b.value ^ n) :
    (∃ x, evaluate .pow [.integer b, .integer e] = .ok (.float x)) ∨
      evaluate .pow [.integer b, .integer e] = .error (.fault (.undefined .pow)) := by
  obtain rfl | rfl | hn : n = 0 ∨ n = 1 ∨ 2 ≤ n := by omega
  · exact absurd (Int.pow_zero _).symm (h ⟨1, by decide, by decide⟩)
  · exact absurd (Int.pow_one _).symm (h b)
  · rcases Binary64.rounded_power_gap b.value.natAbs hn with
      ⟨-, hlt⟩ | ⟨hend, hpow, hn'⟩ | ⟨hgt, -⟩
    · rw [← Int.natAbs_pow] at hlt
      have hfits : cellMin ≤ b.value ^ n ∧ b.value ^ n ≤ cellMax := by
        rw [cellMin, cellMax]
        omega
      exact absurd rfl (h ⟨_, hfits.1, hfits.2⟩)
    · have hsign : ¬ b.value ^ n < 0 := by
        intro hneg
        refine h .least ?_
        rw [← Int.natAbs_pow] at hpow
        change cellMin = b.value ^ n
        rw [cellMin]
        omega
      rw [evaluate_pow_end he hend hn', if_neg hsign]
      exact .inl ⟨_, rfl⟩
    · exact evaluate_pow_beyond he hgt

/-- **A power that fits a cell comes out exactly unless it is a first power that is rounded to an
end of the cells; one that does not fit never comes out as an integer.** -/
theorem evaluate_pow (he : e.value = n) :
    (∀ c : Cell, c.value = b.value ^ n →
        (evaluate .pow [.integer b, .integer e] = .ok (.integer c) ↔ ¬ RoundsToEnd b n)) ∧
      (RoundsToEnd b n → evaluate .pow [.integer b, .integer e] =
        .ok (if b.value < 0 then .integer .least else .float (.ofInt 9223372036854775808))) ∧
      ((∀ c : Cell, c.value ≠ b.value ^ n) →
        (∃ x, evaluate .pow [.integer b, .integer e] = .ok (.float x)) ∨
          evaluate .pow [.integer b, .integer e] = .error (.fault (.undefined .pow))) := by
  refine ⟨fun c hc => ⟨fun h hend => ?_, fun h => evaluate_pow_exact he h hc⟩,
    evaluate_pow_rounded he, evaluate_pow_unfit he⟩
  rw [evaluate_pow_rounded he hend] at h
  split at h
  · obtain rfl := Token.integer.inj (Except.ok.inj h)
    rw [hend.1, Int.pow_one] at hc
    exact hend.2.2 hc.symm
  · cases Except.ok.inj h

end Power

/-- The squares next to `2^63` on either side, and the greatest integer of a cell. -/
theorem evaluate_pow_square :
    evaluate .pow [.integer ⟨3037000499, by decide, by decide⟩,
        .integer ⟨2, by decide, by decide⟩] =
        .ok (.integer ⟨9223372030926249001, by decide, by decide⟩) ∧
      ((∃ x, evaluate .pow [.integer ⟨3037000500, by decide, by decide⟩,
          .integer ⟨2, by decide, by decide⟩] = .ok (.float x)) ∨
        evaluate .pow [.integer ⟨3037000500, by decide, by decide⟩,
          .integer ⟨2, by decide, by decide⟩] = .error (.fault (.undefined .pow))) ∧
      evaluate .pow [.integer ⟨cellMax, by decide, by decide⟩,
        .integer ⟨1, by decide, by decide⟩] = .ok (.float (.ofInt 9223372036854775808)) := by
  have hone : ¬ (2 : Nat) = 1 := by decide
  obtain ⟨hexact, -, -⟩ := evaluate_pow (b := ⟨3037000499, by decide, by decide⟩)
    (e := ⟨2, by decide, by decide⟩) (n := 2) rfl
  obtain ⟨-, -, hunfit⟩ := evaluate_pow (b := ⟨3037000500, by decide, by decide⟩)
    (e := ⟨2, by decide, by decide⟩) (n := 2) rfl
  obtain ⟨-, hrounded, -⟩ := evaluate_pow (b := ⟨cellMax, by decide, by decide⟩)
    (e := ⟨1, by decide, by decide⟩) (n := 1) rfl
  refine ⟨(hexact _ (by decide)).2 fun h => hone h.1, hunfit fun c hc => ?_,
    hrounded ⟨rfl, by decide, by decide⟩⟩
  have hmax := c.le_max
  rw [hc] at hmax
  exact absurd hmax (by decide)

/-- The first power of an integer next to an end of the cells is not that integer. -/
theorem first_power_not_exact :
    evaluate .pow [.integer ⟨cellMax, by decide, by decide⟩,
        .integer ⟨1, by decide, by decide⟩] = .ok (.float (.ofInt 9223372036854775808)) ∧
      evaluate .pow [.integer ⟨-cellMax, by decide, by decide⟩,
        .integer ⟨1, by decide, by decide⟩] = .ok (.integer .least) ∧
      cellMax ^ 1 = cellMax ∧ (-cellMax) ^ 1 ≠ cellMin := by
  refine ⟨?_, ?_, by decide, by decide⟩
  · exact evaluate_pow_rounded (n := 1) rfl ⟨rfl, by decide, by decide⟩
  · exact evaluate_pow_rounded (n := 1) rfl ⟨rfl, by decide, by decide⟩

end ReversePolish
