import ReversePolish.Proofs.Binary64.Nearest
import ReversePolish.Proofs.Enclosure.Exponential

/-! # Reading a double off

From `overflowBound` on a magnitude is rounded to an infinity.  `HasRangeOf x r` says that a double
`x` is finite or not as the magnitude `r` asks for.  The doubles nearest to the ends of an enclosure
bracket the range of what it holds (`Brackets`), so the double that two ends agree on has its range
(`hasRangeOf_settled`). -/

namespace ReversePolish

attribute [local instance (high)] instPowNat

namespace Binary64

/-- The number is beyond the doubles: rounded it would be infinite. -/
def Overflows (r : ℝ) : Prop := (overflowBound : ℝ) ≤ |r|

/-- A finite double for a magnitude in the range of the doubles, and an infinity for one beyond. -/
def HasRangeOf (x : Binary64) (r : ℝ) : Prop :=
  x.isFinite ∧ r < overflowBound ∨ x = infinite false ∧ overflowBound ≤ r

variable {x : Binary64} {r : ℝ}

theorem HasRangeOf.eq_infinite_iff (h : HasRangeOf x r) :
    x = infinite false ↔ (overflowBound : ℝ) ≤ r := by
  rcases h with ⟨hx, hr⟩ | ⟨hx, hr⟩
  · refine iff_of_false ?_ (not_le.2 hr)
    rintro rfl
    cases hx
  · exact iff_of_true hx hr

theorem HasRangeOf.isFinite_iff (h : HasRangeOf x r) : x.isFinite ↔ r < overflowBound := by
  rcases h with ⟨hx, hr⟩ | ⟨rfl, hr⟩
  · exact iff_of_true hx hr
  · exact iff_of_false nofun (not_lt.2 hr)

theorem HasRangeOf.of_lt (hx : x.isFinite) (hr : r < overflowBound) : HasRangeOf x r :=
  .inl ⟨hx, hr⟩

theorem HasRangeOf.of_le (hr : (overflowBound : ℝ) ≤ r) : HasRangeOf (infinite false) r :=
  .inr ⟨rfl, hr⟩

/-- What is between two magnitudes of one range has that range. -/
theorem HasRangeOf.of_between {low high : ℝ} (hlow : HasRangeOf x low) (hhigh : HasRangeOf x high)
    (hle : low ≤ r) (hge : r ≤ high) : HasRangeOf x r := by
  rcases hhigh with ⟨hx, hr⟩ | ⟨rfl, -⟩
  · exact .of_lt hx (hge.trans_lt hr)
  · exact .of_le ((hlow.eq_infinite_iff.1 rfl).trans hle)

theorem one_lt_overflowBound : (1 : ℝ) < overflowBound := by
  exact_mod_cast Nat.lt_of_lt_of_le (by decide : 1 < 2 ^ (54 : Nat) - 1)
    (Nat.le_mul_of_pos_right _ (Nat.two_pow_pos _))

theorem overflowBound_le_two_pow {k : Nat} (hk : 1024 ≤ k) : (overflowBound : ℝ) ≤ (2 : ℝ) ^ k := by
  have hdigits : 2 ^ (54 : Nat) - 1 < 2 ^ (54 : Nat) := by decide
  have hbound := mul_two_pow_lt_two_pow (i := 970) hdigits hk
  rw [← overflowBound] at hbound
  calc (overflowBound : ℝ) ≤ ((2 ^ k : Nat) : ℝ) := Nat.cast_le.2 hbound.le
    _ = (2 : ℝ) ^ k := Nat.cast_pow 2 k

/-- A quotient is rounded to a double of its range. -/
theorem hasRangeOf_ofRatio (n : Nat) {d : Nat} (hd : 0 < d) :
    HasRangeOf (ofRatio false n d) ((n : ℝ) / d) := by
  have hlimit : unitsLimit ≤ nearestOnGrid (n * unitsPerOne) d ↔
      (overflowBound : ℝ) ≤ (n : ℝ) / d := by
    rw [unitsLimit_le_nearestOnGrid_iff hd, ← Nat.mul_assoc,
      Nat.mul_le_mul_right_iff unitsPerOne_pos, le_div_iff₀ (Nat.cast_pos.2 hd)]
    exact_mod_cast Iff.rfl
  rw [ofRatio, ofUnits]
  split
  next h => exact .of_lt rfl (not_le.1 (mt hlimit.2 (Nat.not_le.2 h)))
  next h => exact .of_le (hlimit.1 (Nat.le_of_not_lt h))

end Binary64

namespace Enclosure

open Binary64 (HasRangeOf overflowBound)

variable {p : Nat} {a : Enclosure} {r : ℝ} {x : Binary64} {pair : Binary64 × Binary64}
  {attempt : Nat → Binary64 × Binary64}

theorem hasRangeOf_endpoint {n : Int} (hn : 0 ≤ n) :
    HasRangeOf (endpoint p n) ((n : ℝ) / (2 : ℝ) ^ p) := by
  have hrange := Binary64.hasRangeOf_ofRatio n.natAbs (Nat.two_pow_pos p)
  have hnum : ((n.natAbs : Nat) : ℝ) = n := by
    rw [Nat.cast_natAbs, abs_of_nonneg hn]
  have hden : ((2 ^ p : Nat) : ℝ) = (2 : ℝ) ^ p := Nat.cast_pow 2 p
  rwa [hnum, hden, ← decide_eq_false (Int.not_lt.2 hn)] at hrange

theorem endpoint_eq_infinite {n : Int} (h : overflowBound * 2 ^ p ≤ n) :
    endpoint p n = .infinite false := by
  have hn : 0 ≤ n := Int.le_trans (Int.mul_nonneg (Int.natCast_nonneg _) (by positivity)) h
  refine (hasRangeOf_endpoint hn).eq_infinite_iff.2 ?_
  rw [le_div_iff₀ (scale_pos p), ← cast_scale]
  exact_mod_cast h

/-! ### Brackets -/

/-- Two doubles that have the ranges of magnitudes on the two sides of `r`. -/
def Brackets (pair : Binary64 × Binary64) (r : ℝ) : Prop :=
  ∃ low high : ℝ, low ≤ r ∧ r ≤ high ∧ HasRangeOf pair.1 low ∧ HasRangeOf pair.2 high

theorem Brackets.hasRangeOf (h : Brackets (x, x) r) : HasRangeOf x r := by
  obtain ⟨low, high, hle, hge, hlow, hhigh⟩ := h
  exact hlow.of_between hhigh hle hge

/-- If the lower end is infinite, so is the upper. -/
theorem Brackets.eq_of_infinite (h : Brackets pair r) (hlow : pair.1 = .infinite false) :
    pair = (.infinite false, .infinite false) := by
  obtain ⟨low, high, hle, hge, hfirst, hsecond⟩ := h
  refine Prod.ext hlow (hsecond.eq_infinite_iff.2 ?_)
  exact (hfirst.eq_infinite_iff.1 hlow).trans (hle.trans hge)

theorem brackets_ends (ha : Holds p a r) (hlow : 0 ≤ a.lo) : Brackets (ends p a) r := by
  have hfirst := hasRangeOf_endpoint (p := p) hlow
  have hsecond := hasRangeOf_endpoint (p := p) (hlow.trans ha.lo_le_hi)
  rw [ends, Brackets]
  dsimp only
  refine ⟨_, _, ?_, ?_, hfirst, hsecond⟩
  · rw [div_le_iff₀ (scale_pos p)]
    exact ha.lower
  · rw [le_div_iff₀ (scale_pos p)]
    exact ha.upper

/-- A double that two ends agree on has the range of what they bracket. -/
theorem hasRangeOf_settled (h : ∀ p ∈ attempts, Brackets (attempt p) r)
    (hx : settled? attempt = some x) : HasRangeOf x r := by
  obtain ⟨p, hp, hends⟩ := exists_of_settled? hx
  exact (hends ▸ h p hp).hasRangeOf

/-- The lower end of any bracket has the range, if that is not beyond the doubles. -/
theorem Brackets.hasRangeOf_fst (h : Brackets pair r) (hr : r < overflowBound) :
    HasRangeOf pair.1 r := by
  obtain ⟨low, -, hle, -, hlow, -⟩ := h
  rcases hlow with ⟨hfinite, -⟩ | ⟨-, hbound⟩
  · exact .of_lt hfinite hr
  · exact absurd (hbound.trans hle) (not_le.2 hr)

theorem four_le_of_mem_attempts (hp : p ∈ attempts) : 4 ≤ p := by
  have hall : ∀ p ∈ attempts, 4 ≤ p := by decide
  exact hall p hp

theorem mem_attempts_first : 1280 ∈ attempts := by decide

/-- **Settling gives a double of the range of what is bracketed**, if already the first attempt
knows an overflow. -/
theorem hasRangeOf_settle (h : ∀ p, 4 ≤ p → Brackets (attempt p) r)
    (hfirst : (overflowBound : ℝ) ≤ r → (attempt 1280).1 = .infinite false) :
    HasRangeOf (settle attempt) r := by
  cases hx : settled? attempt with
  | some x =>
      rw [settle, hx, Option.getD_some]
      exact hasRangeOf_settled (fun p hp => h p (four_le_of_mem_attempts hp)) hx
  | none =>
      rw [settle, hx, Option.getD_none]
      refine (h lastAttempt (by decide)).hasRangeOf_fst (not_le.1 fun hr => ?_)
      have hagreed := List.findSome?_eq_none_iff.1 hx 1280 mem_attempts_first
      rw [(h 1280 (by decide)).eq_of_infinite (hfirst hr)] at hagreed
      cases hagreed

/-! ### The exponential -/

theorem overflowBound_le_exp (hr : 710 ≤ r) : (overflowBound : ℝ) ≤ Real.exp r := by
  have hlog : (1024 : Nat) * Real.log 2 ≤ r := by
    have := Real.log_two_lt_d9
    push_cast
    linarith
  calc (overflowBound : ℝ) ≤ 2 ^ 1024 := Binary64.overflowBound_le_two_pow (Nat.le_refl _)
    _ = Real.exp ((1024 : Nat) * Real.log 2) := by
        rw [Real.exp_nat_mul, Real.exp_log two_pos]
    _ ≤ Real.exp r := Real.exp_le_exp.2 hlog

theorem brackets_expEnds (hp : 4 ≤ p) (ha : Holds p a r) : Brackets (expEnds p a) (Real.exp r) := by
  have hscale := scale_pos p
  have hcast (k : Int) : ((k * 2 ^ p : Int) : ℝ) = k * (2 : ℝ) ^ p := by
    rw [Int.cast_mul, cast_scale]
  -- comparing the ends with an integer is comparing what they hold
  have hbelow {k : Int} (h : k * 2 ^ p ≤ a.lo) : (k : ℝ) ≤ r := by
    refine le_of_mul_le_mul_right ?_ hscale
    rw [← hcast]
    exact (Int.cast_le.2 h).trans ha.lower
  have habove {k : Int} (h : a.hi ≤ k * 2 ^ p) : r ≤ k := by
    refine le_of_mul_le_mul_right ?_ hscale
    rw [← hcast]
    exact ha.upper.trans (Int.cast_le.2 h)
  unfold expEnds
  split
  next h =>
    have hrange := HasRangeOf.of_le (overflowBound_le_exp (by exact_mod_cast hbelow h))
    exact ⟨_, _, le_rfl, le_rfl, hrange, hrange⟩
  split
  next h =>
    have hnegative : r ≤ 0 := (habove h).trans (by norm_num)
    have hrange : HasRangeOf (.zero false) (Real.exp r) :=
      .of_lt rfl ((Real.exp_le_one_iff.2 hnegative).trans_lt Binary64.one_lt_overflowBound)
    exact ⟨_, _, le_rfl, le_rfl, hrange, hrange⟩
  split
  next h =>
    have hr : |r| ≤ 1024 := by
      have hlow := hbelow h.2
      have hhigh := habove h.1
      push_cast at hlow hhigh
      exact abs_le.2 ⟨hlow, hhigh⟩
    exact brackets_ends (holds_expEnclosure hp ha hr) (le_max_left _ _)
  · refine ⟨0, max (Real.exp r) overflowBound, (Real.exp_pos r).le, le_max_left _ _, ?_,
      .of_le (le_max_right _ _)⟩
    exact .of_lt rfl (zero_lt_one.trans Binary64.one_lt_overflowBound)

/-- Where the lower end of the exponential of a magnitude is beyond the doubles, so is the double
read off it. -/
theorem expEnds_fst_eq_infinite (hzero : 0 ≤ a.lo) (hle : a.lo ≤ a.hi) (hwidth : a.hi ≤ a.lo + 1)
    (h : overflowBound * 2 ^ p ≤ (expEnclosure p a).lo) :
    (expEnds p a).1 = .infinite false := by
  have hscale : (0 : Int) < 2 ^ p := by positivity
  unfold expEnds
  split
  · rfl
  split
  · omega
  split
  · rw [ends]
    dsimp only
    exact endpoint_eq_infinite h
  · omega

end Enclosure

end ReversePolish
