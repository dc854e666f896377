import ReversePolish.Enclosure.Series

/-! # Exponential and logarithm

Both are rounded correctly as soon as an attempt of `Enclosure.settle` finds an enclosure of the
exact value whose ends agree.

`expEnclosure` halves its argument ten times, sums the series, and squares the result ten times.
`lnEnclosure` splits a magnitude into a power of two and a factor below two, and takes the
logarithm of the factor from the area hyperbolic tangent. -/

namespace ReversePolish

attribute [local instance (high)] instPowNat

namespace Enclosure

/-- The exponential function on `|x| ≤ 1024`; it is never negative. -/
def expEnclosure (p : Nat) (x : Enclosure) : Enclosure :=
  fromZero (squares p 10 (expSeries p (divide x 1024)))

/-- The doubles nearest to the ends of the exponential of an enclosure.  Above 710 they are infinite
and below -746 zero. -/
def expEnds (p : Nat) (x : Enclosure) : Binary64 × Binary64 :=
  if 710 * 2 ^ p ≤ x.lo then (.infinite false, .infinite false)
  else if x.hi ≤ -746 * 2 ^ p then (.zero false, .zero false)
  else if x.hi ≤ 1024 * 2 ^ p ∧ -1024 * 2 ^ p ≤ x.lo then ends p (expEnclosure p x)
  else (.zero false, .infinite false)

/-- The logarithm of a positive magnitude in units. -/
def lnEnclosure (p units : Nat) : Enclosure :=
  let exponent := units.log2
  let power : Nat := 2 ^ exponent
  ((ln2 p).scale ((exponent : Int) - Binary64.unitPlaces)).add
    ((artanhSeries p (ratio p ((units : Int) - power) (units + power))).scale 2)

/-- A bound on the logarithms of the doubles. -/
def lnBound : Nat := 1024

end Enclosure

namespace Binary64

open Enclosure (settle endsWithin isFinite_settle ratio expEnds lnEnclosure lnBound)

/-- The exponential function. -/
def exp : Binary64 → Binary64
  | finite negative units _ =>
      settle fun p => expEnds p (ratio p (signed negative units) unitsPerOne)
  | infinite negative => if negative then zero false else infinite false
  | nan => nan

/-- The natural logarithm; it has no value at zero and below. -/
def ln : Binary64 → Binary64
  | finite negative units _ =>
      if negative ∨ units = 0 then nan
      else if units = unitsPerOne then zero false
      else settle fun p => endsWithin p lnBound (lnEnclosure p units)
  | infinite negative => if negative then nan else infinite false
  | nan => nan

theorem isFinite_ln {units : Nat} {fits : Fits units} (h : units ≠ 0) :
    (finite false units fits).ln.isFinite := by
  dsimp only [ln]
  rw [if_neg (by simp [h])]
  split
  · rfl
  · exact isFinite_settle lnBound (by decide) _ _

end Binary64

end ReversePolish
