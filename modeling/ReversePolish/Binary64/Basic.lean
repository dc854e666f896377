/-! # Doubles, counted in units

A *unit* is the least positive double, `2^-1074`, and every finite double is a whole number of
units.  `Binary64` holds a finite double as a sign and that count, so that comparing is comparing
integers and adding is adding them.  Not every count is a double: neighbouring doubles lie
`spacing` units apart, and `Fits` says that a count lies on that grid and below `2^1024`.

`spacing_dvd_mul` names the counts that lie on the grid without mentioning logarithms: every
significand of at most 53 binary digits, shifted up by any number of places.

The modules that take powers begin by naming core's instance for them, so that they read the same
beside a library that has powers of its own. -/

namespace ReversePolish

attribute [local instance (high)] instPowNat

namespace Binary64

/-- The binary places of a unit. -/
def unitPlaces : Nat := 1074

/-- The binary digits of a significand after its first. -/
def fractionDigits : Nat := 52

/-- The units in one. -/
def unitsPerOne : Nat := 2 ^ unitPlaces

/-- The count of units at which the finite doubles end: `2^1024`. -/
def unitsLimit : Nat := 2 ^ (1024 + unitPlaces)

/-- Neighbouring doubles are one unit apart below `2^53` units, and from there on as far apart as
leaves 53 binary digits in the significand. -/
def spacing (units : Nat) : Nat := 2 ^ (units.log2 - fractionDigits)

/-- The magnitudes of the finite doubles. -/
def Fits (units : Nat) : Prop := units < unitsLimit ∧ spacing units ∣ units

instance (units : Nat) : Decidable (Fits units) := inferInstanceAs (Decidable (_ ∧ _))

end Binary64

/-- A double: finite with a sign and a magnitude in units, infinite with a sign, or no number. -/
inductive Binary64 where
  | finite (negative : Bool) (units : Nat) (fits : Binary64.Fits units)
  | infinite (negative : Bool)
  | nan
deriving DecidableEq

namespace Binary64

/-! ### The grid -/

theorem spacing_pos (units : Nat) : 0 < spacing units := Nat.two_pow_pos _

/-- A significand of at most 53 binary digits, shifted up, lies on the grid. -/
theorem spacing_dvd_mul {k : Nat} (j : Nat) (hk : k ≤ 2 ^ (fractionDigits + 1)) :
    spacing (k * 2 ^ j) ∣ k * 2 ^ j := by
  rcases Nat.eq_zero_or_pos k with rfl | hpos
  · simp
  rcases Nat.lt_or_eq_of_le hk with hlt | rfl
  · have hu : k * 2 ^ j < 2 ^ (fractionDigits + 1 + j) := by
      rw [Nat.pow_add]
      exact Nat.mul_lt_mul_of_pos_right hlt (Nat.two_pow_pos j)
    have hne : k * 2 ^ j ≠ 0 := Nat.ne_of_gt (Nat.mul_pos hpos (Nat.two_pow_pos j))
    have hlog : (k * 2 ^ j).log2 < fractionDigits + 1 + j := (Nat.log2_lt hne).2 hu
    exact Nat.dvd_trans (Nat.pow_dvd_pow 2 (by omega)) (Nat.dvd_mul_left _ _)
  · rw [← Nat.pow_add]
    unfold spacing
    rw [Nat.log2_two_pow]
    exact Nat.pow_dvd_pow 2 (by omega)

/-- A zero of either sign. -/
def zero (negative : Bool) : Binary64 :=
  finite negative 0 ⟨by decide +kernel, ⟨0, by simp⟩⟩

/-! ### Questions -/

def isNaN : Binary64 → Bool
  | nan => true
  | _ => false

def isFinite : Binary64 → Bool
  | finite .. => true
  | _ => false

def isInfinite : Binary64 → Bool
  | infinite _ => true
  | _ => false

/-- Equal to zero, of either sign. -/
def isZero : Binary64 → Bool
  | finite _ units _ => units == 0
  | _ => false

/-- Carries a minus sign; a NaN has none. -/
def isNegative : Binary64 → Bool
  | finite negative _ _ => negative
  | infinite negative => negative
  | nan => false

/-- A count of units under a sign. -/
def signed (negative : Bool) (units : Nat) : Int :=
  if negative then -(units : Int) else units

/-- The exact value of a finite double, in units. -/
def units? : Binary64 → Option Int
  | finite negative units _ => some (signed negative units)
  | _ => none

/-- The integer a double is equal to, if it has no fractional part. -/
def toInt? : Binary64 → Option Int
  | finite negative units _ =>
      if units % unitsPerOne = 0 then some (signed negative (units / unitsPerOne)) else none
  | _ => none

/-! ### Changing the sign -/

def neg : Binary64 → Binary64
  | finite negative units fits => finite (!negative) units fits
  | infinite negative => infinite (!negative)
  | nan => nan

def abs : Binary64 → Binary64
  | finite _ units fits => finite false units fits
  | infinite _ => infinite false
  | nan => nan

theorem neg_neg (x : Binary64) : x.neg.neg = x := by
  cases x <;> simp [neg]

end Binary64

end ReversePolish
