import Mathlib.Algebra.Order.Field.Basic
import Mathlib.Algebra.Order.Field.Rat
import Mathlib.Data.Nat.Dist
import Mathlib.Tactic.FieldSimp
import Mathlib.Tactic.Linarith
import ReversePolish.Proofs.Binary64.Integral

/-! # The nearest double

`IsNearest q x` says what it is to be the double nearest to the rational `q`, by the distances to
all doubles: none lies nearer, and if another lies as near, `x` is the one with the even
significand.  From the middle between the greatest double and `2^1024` on, it is the infinity of
the sign of `q`.  Rounding finds it, for quotients of integers (`isNearest_ofRatio`) and for
integers (`isNearest_ofInt`).

The distances are compared on counts of units, where the double nearest to `n / d` units is the
grid point `g` for which `g * d` lies nearest to `n` (`dist_nearestOnGrid_le`).  A grid point that
is no multiple of the spacing at `n / d` lies below a power of two that is one
(`spacing_dvd_or_lt`). -/

namespace ReversePolish

attribute [local instance (high)] instPowNat

/-! ### The nearest multiple -/

/-- A multiple of `d` lies on one side of `n` or on the other, or is one of the two next to it. -/
theorem multiple_cases (n d k : Nat) :
    k * d + d ≤ n / d * d ∨ k = n / d ∨ k = n / d + 1 ∨ n / d * d + 2 * d ≤ k * d := by
  rcases Nat.lt_or_ge k (n / d) with hlt | hge
  · have := Nat.mul_le_mul_right d hlt
    rw [Nat.succ_mul] at this
    exact .inl this
  · rcases Nat.lt_or_ge (n / d + 1) k with hlt | hle
    · have := Nat.mul_le_mul_right d hlt
      rw [Nat.succ_mul, Nat.succ_mul] at this
      omega
    · omega

/-- The nearest integer is the quotient rounded down or up, by the rest; a half is settled by
parity. -/
theorem nearest_cases (n d : Nat) :
    nearest n d = n / d ∧ 2 * (n % d) ≤ d ∧ (2 * (n % d) = d → n / d % 2 = 0) ∨
      nearest n d = n / d + 1 ∧ d ≤ 2 * (n % d) ∧ (2 * (n % d) = d → n / d % 2 = 1) := by
  unfold nearest
  dsimp only
  split <;> omega

/-- A number lies between two multiples, as far above the lower one as its rest says. -/
theorem quotient_spec (n : Nat) {d : Nat} (hd : 0 < d) :
    n / d * d + n % d = n ∧ n % d < d ∧ (n / d + 1) * d = n / d * d + d :=
  ⟨Nat.div_add_mod' n d, Nat.mod_lt n hd, Nat.succ_mul _ _⟩

theorem dist_nearest_le {n d : Nat} (hd : 0 < d) (k : Nat) :
    Nat.dist (nearest n d * d) n ≤ Nat.dist (k * d) n := by
  obtain ⟨hsplit, hrest, hsucc⟩ := quotient_spec n hd
  unfold Nat.dist
  rcases nearest_cases n d with ⟨heq, hcase⟩ | ⟨heq, hcase⟩
  · rcases multiple_cases n d k with h | rfl | rfl | h <;> rw [heq] <;> omega
  · rcases multiple_cases n d k with h | rfl | rfl | h <;> rw [heq] <;> omega

/-- If another multiple lies as near, the nearest is an even one. -/
theorem nearest_even_of_dist_eq {n d k : Nat} (hd : 0 < d) (hk : k ≠ nearest n d)
    (h : Nat.dist (k * d) n = Nat.dist (nearest n d * d) n) : nearest n d % 2 = 0 := by
  obtain ⟨hsplit, hrest, hsucc⟩ := quotient_spec n hd
  unfold Nat.dist at h
  rcases nearest_cases n d with ⟨heq, hcase⟩ | ⟨heq, hcase⟩
  · rw [heq] at hk h ⊢
    rcases multiple_cases n d k with hside | rfl | rfl | hside <;> omega
  · rw [heq] at hk h ⊢
    rcases multiple_cases n d k with hside | rfl | rfl | hside <;> omega

/-- The nearest multiple is half a step away at most, and an even one if it is as much. -/
theorem dist_nearest_le_half {n d : Nat} (hd : 0 < d) :
    2 * Nat.dist (nearest n d * d) n ≤ d ∧
      (2 * Nat.dist (nearest n d * d) n = d → nearest n d % 2 = 0) := by
  obtain ⟨hsplit, hrest, hsucc⟩ := quotient_spec n hd
  unfold Nat.dist
  rcases nearest_cases n d with ⟨heq, hcase⟩ | ⟨heq, hcase⟩
  · rw [heq]
    omega
  · rw [heq]
    omega

/-- What is less than half a step away is the nearest multiple. -/
theorem nearest_eq_of_dist_lt {n d k : Nat} (h : 2 * Nat.dist (k * d) n < d) :
    nearest n d = k := by
  obtain ⟨hsplit, hrest, hsucc⟩ := quotient_spec n (Nat.zero_lt_of_lt h)
  unfold Nat.dist at h
  rcases nearest_cases n d with ⟨heq, hcase⟩ | ⟨heq, hcase⟩
  · rcases multiple_cases n d k with hside | rfl | rfl | hside <;> omega
  · rcases multiple_cases n d k with hside | rfl | rfl | hside <;> omega

namespace Binary64

/-! ### The nearest grid point -/

theorem spacing_dvd_or_lt {g : Nat} (u : Nat) (hg : spacing g ∣ g) :
    spacing u ∣ g ∨ g < 2 ^ u.log2 := by
  rcases Nat.lt_or_ge g.log2 u.log2 with hlt | hge
  · refine .inr (Nat.lt_of_lt_of_le Nat.lt_log2_self ?_)
    exact Nat.pow_le_pow_right (by decide) hlt
  · exact .inl (Nat.dvd_trans (Nat.pow_dvd_pow 2 (Nat.sub_le_sub_right hge _)) hg)

theorem nearestOnGrid_mul (n d : Nat) :
    nearestOnGrid n d * d =
      nearest n (d * spacing (n / d)) * (d * spacing (n / d)) := by
  rw [nearestOnGrid, Nat.mul_assoc, Nat.mul_comm (spacing _)]

theorem mul_spacing_mul (k s d : Nat) : s * k * d = k * (d * s) := by
  rw [Nat.mul_comm s, Nat.mul_assoc, Nat.mul_comm s]

/-- A grid point below the binary digits of `n / d` is further away than the least count that has
them all. -/
theorem dist_lt_of_lt_two_pow {n d g : Nat} (hd : 0 < d) (hg : ¬ spacing (n / d) ∣ g)
    (h : g < 2 ^ (n / d).log2) : Nat.dist (nearestOnGrid n d * d) n < Nat.dist (g * d) n := by
  have hquotient : n / d ≠ 0 := by
    intro hzero
    rw [hzero, show Nat.log2 0 = 0 from rfl, Nat.pow_zero, Nat.lt_one_iff] at h
    exact hg (h ▸ Nat.dvd_zero _)
  obtain ⟨k, hk⟩ := spacing_dvd_two_pow_log2 (n / d)
  have hbelow : 2 ^ (n / d).log2 * d ≤ n :=
    (Nat.le_div_iff_mul_le hd).1 (Nat.log2_self_le hquotient)
  have hlt : g * d < 2 ^ (n / d).log2 * d := Nat.mul_lt_mul_of_pos_right h hd
  have hnear := dist_nearest_le (n := n) (Nat.mul_pos hd (spacing_pos (n / d))) k
  rw [← nearestOnGrid_mul, ← mul_spacing_mul, ← hk] at hnear
  unfold Nat.dist at *
  omega

/-- **No grid point lies nearer to `n / d` than its rounding.** -/
theorem dist_nearestOnGrid_le {n d g : Nat} (hd : 0 < d) (hg : spacing g ∣ g) :
    Nat.dist (nearestOnGrid n d * d) n ≤ Nat.dist (g * d) n := by
  by_cases hmultiple : spacing (n / d) ∣ g
  · obtain ⟨k, rfl⟩ := hmultiple
    rw [nearestOnGrid_mul, mul_spacing_mul]
    exact dist_nearest_le (Nat.mul_pos hd (spacing_pos _)) k
  · have hlt := (spacing_dvd_or_lt (n / d) hg).resolve_left hmultiple
    exact Nat.le_of_lt (dist_lt_of_lt_two_pow hd hmultiple hlt)

theorem nearestOnGrid_le_two_pow {n d : Nat} (hd : 0 < d) :
    nearestOnGrid n d ≤ 2 ^ ((n / d).log2 + 1) := by
  have hgrid := spacing_dvd_mul (k := 1) ((n / d).log2 + 1) (by decide)
  rw [Nat.one_mul] at hgrid
  refine nearestOnGrid_le_of_le hd hgrid (Nat.le_of_lt ?_)
  rw [← Nat.div_lt_iff_lt_mul hd]
  exact Nat.lt_log2_self

/-- A rounding that is an even multiple of the spacing it was found with is an even multiple of its
own. -/
theorem two_mul_spacing_dvd {n d : Nat} (hd : 0 < d)
    (h : nearest n (d * spacing (n / d)) % 2 = 0) :
    2 * spacing (nearestOnGrid n d) ∣ nearestOnGrid n d := by
  rcases Nat.lt_or_eq_of_le (nearestOnGrid_le_two_pow (n := n) hd) with hlt | heq
  · have hspacing : spacing (nearestOnGrid n d) ∣ spacing (n / d) := by
      refine Nat.pow_dvd_pow 2 (Nat.sub_le_sub_right ?_ _)
      rcases Nat.eq_zero_or_pos (nearestOnGrid n d) with hzero | hpos
      · rw [hzero]
        exact Nat.zero_le _
      · exact Nat.le_of_lt_succ ((Nat.log2_lt (Nat.ne_of_gt hpos)).2 hlt)
    exact Nat.mul_dvd_mul (Nat.dvd_of_mod_eq_zero h) hspacing
  · -- rounded up to a power of two, where the spacing has doubled
    rw [heq, spacing, Nat.log2_two_pow, Nat.mul_comm, ← Nat.pow_succ]
    exact Nat.pow_dvd_pow 2 (by simp only [fractionDigits]; omega)

/-- **If another grid point lies as near, the rounding is the even one.** -/
theorem even_of_dist_eq {n d g : Nat} (hd : 0 < d) (hg : spacing g ∣ g)
    (hne : g ≠ nearestOnGrid n d) (h : Nat.dist (g * d) n = Nat.dist (nearestOnGrid n d * d) n) :
    2 * spacing (nearestOnGrid n d) ∣ nearestOnGrid n d := by
  by_cases hmultiple : spacing (n / d) ∣ g
  · obtain ⟨k, rfl⟩ := hmultiple
    rw [nearestOnGrid_mul, mul_spacing_mul] at h
    refine two_mul_spacing_dvd hd ?_
    refine nearest_even_of_dist_eq (Nat.mul_pos hd (spacing_pos _)) ?_ h
    rintro rfl
    exact hne (Nat.mul_comm _ _)
  · have hlt := (spacing_dvd_or_lt (n / d) hg).resolve_left hmultiple
    exact absurd h (Nat.ne_of_gt (dist_lt_of_lt_two_pow hd hmultiple hlt))

/-! ### Overflow -/

/-- The last grid point below a power of two lies two halves of a step below it. -/
theorem le_last {g j : Nat} (hg : spacing g ∣ g) (h : g < 2 ^ 54 * 2 ^ j) :
    g ≤ (2 ^ 54 - 2) * 2 ^ j := by
  have hspacing : spacing (2 ^ (53 + j)) = 2 * 2 ^ j := by
    rw [spacing, Nat.log2_two_pow, Nat.mul_comm, ← Nat.pow_succ]
    congr 1
    simp only [fractionDigits]
    omega
  rcases spacing_dvd_or_lt (2 ^ (53 + j)) hg with hmultiple | hlt
  · rw [hspacing] at hmultiple
    obtain ⟨k, rfl⟩ := hmultiple
    rw [Nat.mul_right_comm] at h ⊢
    have := Nat.lt_of_mul_lt_mul_right h
    exact Nat.mul_le_mul_right _ (by omega)
  · rw [Nat.log2_two_pow, Nat.pow_add] at hlt
    exact Nat.le_trans (Nat.le_of_lt hlt) (Nat.mul_le_mul_right _ (by decide))

/-- The last grid point below a power of two is odd. -/
theorem not_even_last (j : Nat) :
    ¬ 2 * spacing ((2 ^ 54 - 2) * 2 ^ j) ∣ (2 ^ 54 - 2) * 2 ^ j := by
  have hlog : ((2 ^ 54 - 2) * 2 ^ j).log2 = 53 + j := by
    rw [log2_mul_two_pow (by decide)]
    rfl
  have hspacing : 2 * spacing ((2 ^ 54 - 2) * 2 ^ j) = 4 * 2 ^ j := by
    rw [spacing, hlog, show 53 + j - fractionDigits = j + 1 by simp only [fractionDigits]; omega,
      Nat.pow_succ]
    omega
  rw [hspacing]
  intro h
  have := Nat.dvd_of_mul_dvd_mul_right (Nat.two_pow_pos j) h
  omega

/-- A quotient rounds to the power of two from the middle between it and the last grid point
below. -/
theorem two_pow_le_nearestOnGrid_iff {n d : Nat} (j : Nat) (hd : 0 < d) :
    2 ^ 54 * 2 ^ j ≤ nearestOnGrid n d ↔ (2 ^ 54 - 1) * 2 ^ j * d ≤ n := by
  have hlast : spacing ((2 ^ 54 - 2) * 2 ^ j) ∣ (2 ^ 54 - 2) * 2 ^ j := by
    rw [show (2 : Nat) ^ 54 - 2 = (2 ^ 53 - 1) * 2 ^ 1 from rfl, Nat.mul_assoc, ← Nat.pow_add]
    exact spacing_dvd_mul _ (by decide)
  have htop : spacing (2 ^ 54 * 2 ^ j) ∣ 2 ^ 54 * 2 ^ j := by
    rw [← Nat.pow_add, ← Nat.one_mul (2 ^ (54 + j))]
    exact spacing_dvd_mul _ (by decide)
  have hpos : 0 < 2 ^ j * d := Nat.mul_pos (Nat.two_pow_pos j) hd
  have hmul (k : Nat) : k * 2 ^ j * d = k * (2 ^ j * d) := Nat.mul_assoc _ _ _
  constructor
  · intro h
    refine Nat.le_of_not_lt fun hlt => ?_
    have habove := Nat.mul_le_mul_right d h
    rcases Nat.le_total n ((2 ^ 54 - 2) * 2 ^ j * d) with hle | hge
    · have := Nat.mul_le_mul_right d (nearestOnGrid_le_of_le hd hlast hle)
      simp only [hmul] at *
      omega
    · have hnear := dist_nearestOnGrid_le (n := n) hd hlast
      simp only [hmul, Nat.dist] at *
      omega
  · intro h
    refine Nat.le_of_not_lt fun hlt => ?_
    have hbelow := Nat.mul_le_mul_right d (le_last (spacing_dvd_nearestOnGrid n d) hlt)
    have hnear := dist_nearestOnGrid_le (n := n) hd htop
    have htie : nearestOnGrid n d * d = (2 ^ 54 - 2) * 2 ^ j * d ∧
        Nat.dist (2 ^ 54 * 2 ^ j * d) n = Nat.dist (nearestOnGrid n d * d) n := by
      simp only [hmul, Nat.dist] at *
      omega
    -- as near as the power of two, the last grid point would have to be even
    have heven := even_of_dist_eq hd htop (Nat.ne_of_gt hlt) htie.2
    rw [Nat.eq_of_mul_eq_mul_right hd htie.1] at heven
    exact not_even_last j heven

theorem unitsLimit_le_nearestOnGrid_iff {n d : Nat} (hd : 0 < d) :
    unitsLimit ≤ nearestOnGrid n d ↔ overflowBound * (d * unitsPerOne) ≤ n := by
  have hlimit : unitsLimit = 2 ^ 54 * 2 ^ (970 + unitPlaces) := by
    rw [unitsLimit, ← Nat.pow_add]
    congr 1
  have hbound : overflowBound * (d * unitsPerOne) =
      (2 ^ 54 - 1) * 2 ^ (970 + unitPlaces) * d := by
    -- the two ways of writing a power of literals
    have hliteral : (2 : Nat) ^ (54 : Nat) = 2 ^ 54 := rfl
    have hregroup (a b c : Nat) : a * b * (d * c) = a * (b * c) * d := by
      rw [Nat.mul_comm d, ← Nat.mul_assoc, Nat.mul_assoc a]
    rw [overflowBound, hliteral, unitsPerOne, Nat.pow_add]
    exact hregroup _ _ _
  rw [hlimit, hbound]
  exact two_pow_le_nearestOnGrid_iff _ hd

/-! ### The nearest double -/

/-- The exact value of a finite double. -/
def toRat? (x : Binary64) : Option ℚ := x.units?.map fun units => (units : ℚ) / unitsPerOne

/-- The significand is an even number. -/
def HasEvenSignificand : Binary64 → Prop
  | finite _ units _ => 2 * spacing units ∣ units
  | _ => False

/-- **The double nearest to a rational**, of two the one with the even significand; an infinity from
the middle between the greatest double and `2^1024` on.  A zero may have either sign. -/
inductive IsNearest (q : ℚ) : Binary64 → Prop
  | finite {x : Binary64} {v : ℚ} (hq : |q| < overflowBound) (hx : x.toRat? = some v)
      (hnear : ∀ (y : Binary64) w, y.toRat? = some w → |v - q| ≤ |w - q|)
      (htie : ∀ (y : Binary64) w, y.toRat? = some w → w ≠ v → |w - q| = |v - q| →
        x.HasEvenSignificand) :
      IsNearest q x
  | infinite (hq : overflowBound ≤ |q|) : IsNearest q (.infinite (q < 0))

theorem cast_unitsPerOne_pos : (0 : ℚ) < unitsPerOne := Nat.cast_pos.2 unitsPerOne_pos

theorem cast_dist (a b : Nat) : ((Nat.dist a b : Nat) : ℚ) = |(a : ℚ) - b| := by
  rcases Nat.le_total a b with h | h
  · rw [Nat.dist_eq_sub_of_le h, Nat.cast_sub h, abs_sub_comm, abs_of_nonneg]
    exact sub_nonneg.2 (Nat.cast_le.2 h)
  · rw [Nat.dist_eq_sub_of_le_right h, Nat.cast_sub h, abs_of_nonneg]
    exact sub_nonneg.2 (Nat.cast_le.2 h)

/-- The distance of a count of units from `n / d` units. -/
theorem abs_count_sub (g n : Nat) {d : Nat} (hd : 0 < d) :
    |(g : ℚ) / unitsPerOne - n / (d * unitsPerOne)| = Nat.dist (g * d) n / (d * unitsPerOne) := by
  have hd' : (0 : ℚ) < d := Nat.cast_pos.2 hd
  have hunits := cast_unitsPerOne_pos
  have hcommon : (g : ℚ) / unitsPerOne - n / (d * unitsPerOne) =
      ((g * d : Nat) - n) / (d * unitsPerOne) := by
    rw [Nat.cast_mul]
    field_simp
  rw [hcommon, abs_div, cast_dist, abs_of_pos (mul_pos hd' hunits)]

theorem abs_signed (negative : Bool) (n : Nat) : |(signed negative n : ℚ)| = n := by
  cases negative <;> simp [signed]

theorem exists_of_toRat? {y : Binary64} {w : ℚ} (h : y.toRat? = some w) :
    ∃ negative units fits, y = finite negative units fits ∧
      w = (signed negative units : ℚ) / unitsPerOne := by
  cases y with
  | finite negative units fits => exact ⟨negative, units, fits, rfl, (Option.some.inj h).symm⟩
  | _ => cases h

/-- Of two values under one sign the magnitudes are as far apart. -/
theorem abs_signed_sub (negative : Bool) (g n : Nat) (c d : ℚ) :
    |(signed negative g : ℚ) / c - signed negative n / d| = |(g : ℚ) / c - n / d| := by
  cases negative with
  | false => rfl
  | true =>
      simp only [signed, if_true, Int.cast_neg, Int.cast_natCast, neg_div]
      rw [← neg_sub', abs_neg]

/-- Whatever the signs, values are at least as far apart as their magnitudes. -/
theorem le_abs_signed_sub (negative negative' : Bool) (g n : Nat) {c d : ℚ} (hc : 0 < c)
    (hd : 0 < d) :
    |(g : ℚ) / c - n / d| ≤ |(signed negative g : ℚ) / c - signed negative' n / d| := by
  have := abs_abs_sub_abs_le_abs_sub ((signed negative g : ℚ) / c)
    ((signed negative' n : ℚ) / d)
  rwa [abs_div, abs_div, abs_signed, abs_signed, abs_of_pos hc, abs_of_pos hd] at this

/-- Values under different signs lie on two sides of zero. -/
theorem abs_signed_sub_of_ne {negative negative' : Bool} (h : negative' ≠ negative) (g n : Nat)
    {c d : ℚ} (hc : 0 < c) (hd : 0 < d) :
    |(signed negative' g : ℚ) / c - signed negative n / d| = (g : ℚ) / c + n / d := by
  have hsum : 0 ≤ (g : ℚ) / c + n / d :=
    add_nonneg (div_nonneg g.cast_nonneg hc.le) (div_nonneg n.cast_nonneg hd.le)
  cases negative' with
  | false =>
      obtain rfl : negative = true := by simpa using h.symm
      simp only [signed, Bool.false_eq_true, if_false, if_true, Int.cast_neg, Int.cast_natCast,
        neg_div, sub_neg_eq_add]
      exact abs_of_nonneg hsum
  | true =>
      obtain rfl : negative = false := by simpa using h.symm
      simp only [signed, Bool.false_eq_true, if_false, if_true, Int.cast_neg, Int.cast_natCast,
        neg_div]
      rw [← neg_add', abs_neg, abs_of_nonneg hsum]

section Quotient

variable {negative : Bool} {n d : Nat}

/-- The value of `n / d` units under a sign. -/
def unitsValue (negative : Bool) (n d : Nat) : ℚ := (signed negative n : ℚ) / (d * unitsPerOne)

theorem cast_mul_unitsPerOne_pos (hd : 0 < d) : (0 : ℚ) < d * unitsPerOne :=
  mul_pos (Nat.cast_pos.2 hd) cast_unitsPerOne_pos

variable (negative n) in
theorem overflowBound_le_iff (hd : 0 < d) :
    (overflowBound : ℚ) ≤ |unitsValue negative n d| ↔ unitsLimit ≤ nearestOnGrid n d := by
  have hd' := cast_mul_unitsPerOne_pos hd
  rw [unitsValue, abs_div, abs_signed, abs_of_pos hd', le_div_iff₀ hd',
    unitsLimit_le_nearestOnGrid_iff hd]
  exact_mod_cast Iff.rfl

/-- The distance of a rounding from what is rounded. -/
theorem abs_rounding_sub (hd : 0 < d) :
    |(signed negative (nearestOnGrid n d) : ℚ) / unitsPerOne - unitsValue negative n d| =
      Nat.dist (nearestOnGrid n d * d) n / (d * unitsPerOne) := by
  rw [unitsValue, abs_signed_sub, abs_count_sub _ _ hd]

theorem dist_div_le (negative negative' : Bool) (g n : Nat) (hd : 0 < d) :
    (Nat.dist (g * d) n : ℚ) / (d * unitsPerOne) ≤
      |(signed negative' g : ℚ) / unitsPerOne - unitsValue negative n d| := by
  rw [unitsValue, ← abs_count_sub _ _ hd]
  exact le_abs_signed_sub _ _ _ _ cast_unitsPerOne_pos (cast_mul_unitsPerOne_pos hd)

/-- No double lies nearer than the rounding. -/
theorem abs_rounding_sub_le (hd : 0 < d) {y : Binary64} {w : ℚ} (hw : y.toRat? = some w) :
    |(signed negative (nearestOnGrid n d) : ℚ) / unitsPerOne - unitsValue negative n d| ≤
      |w - unitsValue negative n d| := by
  obtain ⟨negative', g, fits, -, rfl⟩ := exists_of_toRat? hw
  have hnear : (Nat.dist (nearestOnGrid n d * d) n : ℚ) ≤ Nat.dist (g * d) n :=
    Nat.cast_le.2 (dist_nearestOnGrid_le hd fits.2)
  rw [abs_rounding_sub hd]
  exact le_trans (div_le_div_of_nonneg_right hnear (cast_mul_unitsPerOne_pos hd).le)
    (dist_div_le _ _ _ _ hd)

/-- A rounding and its negative lie equally near only if they are zero. -/
theorem eq_zero_of_tie (hd : 0 < d) {negative' : Bool} (h : negative' ≠ negative)
    (htie : |(signed negative' (nearestOnGrid n d) : ℚ) / unitsPerOne - unitsValue negative n d| =
      |(signed negative (nearestOnGrid n d) : ℚ) / unitsPerOne - unitsValue negative n d|) :
    nearestOnGrid n d = 0 := by
  have hunits := cast_unitsPerOne_pos
  have hd' := cast_mul_unitsPerOne_pos hd
  rw [unitsValue, abs_signed_sub_of_ne h _ _ hunits hd', abs_signed_sub] at htie
  rcases abs_cases ((nearestOnGrid n d : ℚ) / unitsPerOne - n / (d * unitsPerOne)) with
    ⟨heq, -⟩ | ⟨heq, -⟩
  · have hzero : (n : ℚ) / (d * unitsPerOne) = 0 := by linarith
    have hn : n = 0 := Nat.cast_eq_zero.1 ((div_eq_zero_iff.1 hzero).resolve_right hd'.ne')
    exact Nat.le_zero.1 (nearestOnGrid_le_of_le hd (Nat.dvd_zero _) (by omega))
  · have hzero : (nearestOnGrid n d : ℚ) / unitsPerOne = 0 := by linarith
    exact Nat.cast_eq_zero.1 ((div_eq_zero_iff.1 hzero).resolve_right hunits.ne')

/-- If another double lies as near, the significand of the rounding is even. -/
theorem even_of_abs_sub_eq (hd : 0 < d) {y : Binary64} {w : ℚ} (hw : y.toRat? = some w)
    (hne : w ≠ (signed negative (nearestOnGrid n d) : ℚ) / unitsPerOne)
    (htie : |w - unitsValue negative n d| =
      |(signed negative (nearestOnGrid n d) : ℚ) / unitsPerOne - unitsValue negative n d|) :
    2 * spacing (nearestOnGrid n d) ∣ nearestOnGrid n d := by
  obtain ⟨negative', g, fits, -, rfl⟩ := exists_of_toRat? hw
  have hnear := dist_nearestOnGrid_le (n := n) hd fits.2
  refine even_of_dist_eq hd fits.2 ?_ (Nat.le_antisymm ?_ hnear)
  · rintro rfl
    by_cases hsign : negative' = negative
    · exact hne (hsign ▸ rfl)
    · have hzero := eq_zero_of_tie hd hsign htie
      rw [hzero] at hne
      cases negative <;> cases negative' <;> exact hne rfl
  · have hle := dist_div_le negative negative' g n hd
    rw [htie, abs_rounding_sub hd, div_le_div_iff_of_pos_right (cast_mul_unitsPerOne_pos hd)] at hle
    exact Nat.cast_le.1 hle

theorem unitsValue_neg_iff (hd : 0 < d) (h : signed negative n ≠ 0) :
    decide (unitsValue negative n d < 0) = negative := by
  rw [unitsValue, ← signed_lt_zero h, decide_eq_decide,
    div_lt_iff₀ (cast_mul_unitsPerOne_pos hd), zero_mul, Int.cast_lt_zero, signed_lt_zero h]

variable (negative n) in
/-- **Rounding a quotient of units finds the nearest double.** -/
theorem isNearest_ofUnits (hd : 0 < d) :
    IsNearest (unitsValue negative n d) (ofUnits negative n d) := by
  unfold ofUnits
  split
  next hlimit =>
    have hfinite := mt (overflowBound_le_iff negative n hd).1 (Nat.not_le.2 hlimit)
    refine .finite (lt_of_not_ge hfinite) rfl ?_ ?_
    · intro y w hw
      exact abs_rounding_sub_le hd hw
    · intro y w hw hne htie
      exact even_of_abs_sub_eq hd hw hne htie
  next hlimit =>
    have hoverflow := (overflowBound_le_iff negative n hd).2 (Nat.le_of_not_lt hlimit)
    have hn : signed negative n ≠ 0 := by
      intro hzero
      have hn : n = 0 := by rw [← natAbs_signed negative n, hzero, Int.natAbs_zero]
      have hrounded := nearestOnGrid_le_of_le (g := 0) hd (Nat.dvd_zero _) (by omega : n ≤ 0 * d)
      exact hlimit (Nat.lt_of_le_of_lt hrounded (Nat.two_pow_pos _))
    have hinfinite := IsNearest.infinite hoverflow
    rw [unitsValue_neg_iff hd hn] at hinfinite
    exact hinfinite

variable (negative n) in
/-- **The double nearest to a quotient.** -/
theorem isNearest_ofRatio (hd : 0 < d) :
    IsNearest ((signed negative n : ℚ) / d) (ofRatio negative n d) := by
  have hunits := cast_unitsPerOne_pos
  have h := isNearest_ofUnits negative (n * unitsPerOne) hd
  rw [unitsValue, signed_mul, Int.cast_mul, Int.cast_natCast, mul_div_mul_right _ _ hunits.ne'] at h
  exact h

end Quotient

theorem signed_natAbs (i : Int) : signed (i < 0) i.natAbs = i := by
  by_cases hi : i < 0
  · rw [signed, if_pos (decide_eq_true hi)]
    omega
  · rw [signed, if_neg (by simpa using hi)]
    omega

/-- **The double nearest to an integer.** -/
theorem isNearest_ofInt (i : Int) : IsNearest i (ofInt i) := by
  have h := isNearest_ofRatio (i < 0) i.natAbs Nat.one_pos
  rw [signed_natAbs, Nat.cast_one, div_one] at h
  exact h

end Binary64

end ReversePolish
