import ReversePolish.Binary64.Exponential
import ReversePolish.Binary64.Arithmetic

/-! # Powers

`pow x y` is rounded correctly.  Where the power is a binary fraction it could lie on a double or
halfway between two, and no enclosure would settle it; `exactPower?` finds these cases.  A base is
written as an odd number times a power of two, an exponent as an integer over a power of two;
square roots are taken while they come out even.  An odd base other than one has to be raised to
less than `2^6` to leave at most 54 binary digits, so the limit of `exactLimit` is generous; the
powers up to it of a base of at least two reach past the doubles.  Everything else is
`exp (y ln x)`.  If no attempt at that is settled, the power overflows or not by an exact comparison
of whole numbers, `reaches`; they have more digits than can be written out, but no power is known
that comes so close to an end of the doubles.

A zero, an infinity or one as base, and a zero or an infinity as exponent, follow the rules of the
format; a negative base has powers with integral exponents only. -/

namespace ReversePolish

attribute [local instance (high)] instPowNat

/-- How often two divides a number; never for zero. -/
def twos (n : Nat) : Nat :=
  if n = 0 ∨ n % 2 = 1 then 0 else twos (n / 2) + 1
termination_by n
decreasing_by omega

namespace Binary64

open Enclosure (settled? lastAttempt expEnds lnEnclosure)

/-- The largest integral exponent that a power is written out for. -/
def exactLimit : Nat := 1100

/-- The root of degree `2 ^ n` of `odd * 2 ^ exponent`, if that is a binary fraction again. -/
def exactRoots? : Nat → Nat → Int → Option (Nat × Int)
  | 0, odd, exponent => some (odd, exponent)
  | n + 1, odd, exponent =>
      if exponent % 2 = 0 then
        (exactRoot? odd).bind fun root => exactRoots? n root (exponent / 2)
      else none

/-- The double nearest to `n * 2 ^ exponent`, or to its reciprocal. -/
def scaledPower (reciprocal : Bool) (n : Nat) : Int → Binary64
  | .ofNat e => if reciprocal then ofRatio false 1 (n * 2 ^ e) else ofRatio false (n * 2 ^ e)
  | .negSucc e =>
      if reciprocal then ofRatio false (2 ^ (e + 1)) n else ofRatio false n (2 ^ (e + 1))

/-- A power of two, infinite or zero where it leaves the doubles. -/
def powerOfTwo (exponent : Int) : Binary64 :=
  if 1024 ≤ exponent then infinite false
  else if exponent ≤ -1100 then zero false
  else scaledPower false 1 exponent

/-- The power of `odd * 2 ^ exponent` with an integral exponent, written out. -/
def integralPower? (odd : Nat) (exponent : Int) (inverse : Bool) (times : Nat) :
    Option Binary64 :=
  if odd = 1 then some (powerOfTwo (if inverse then -(exponent * times) else exponent * times))
  else if times ≤ exactLimit then some (scaledPower inverse (odd ^ times) (exponent * times))
  else none

/-- The power of two magnitudes in units, where it is a binary fraction or its exponent is a small
integer. -/
def exactPower? (base : Nat) (inverse : Bool) (exponent : Nat) : Option Binary64 :=
  let baseTwos := twos base
  let exponentTwos := min (twos exponent) unitPlaces
  (exactRoots? (unitPlaces - exponentTwos) (base / 2 ^ baseTwos)
      ((baseTwos : Int) - unitPlaces)).bind
    fun (odd, power) => integralPower? odd power inverse (exponent / 2 ^ exponentTwos)

/-- The doubles nearest to the ends of the power of two magnitudes in units, at `p` places. -/
def powerEnds (base : Nat) (inverse : Bool) (exponent p : Nat) : Binary64 × Binary64 :=
  let log := lnEnclosure p base
  let product := (log.scale (signed inverse exponent)).divide unitsPerOne
  expEnds p product

/-- The power of `base / one` by `exponent / one` is at least `bound`. -/
@[noinline] def reaches (bound one base : Nat) (inverse : Bool) (exponent : Nat) : Bool :=
  if inverse then bound ^ one * base ^ exponent ≤ one ^ exponent
  else bound ^ one * one ^ exponent ≤ base ^ exponent

/-- The power of two magnitudes in units, by its logarithm. -/
def settledPower (base : Nat) (inverse : Bool) (exponent : Nat) : Binary64 :=
  match settled? (powerEnds base inverse exponent) with
  | some power => power
  | none =>
      if reaches overflowBound unitsPerOne base inverse exponent then infinite false
      else (powerEnds base inverse exponent lastAttempt).1

/-- The power of two magnitudes in units. -/
def magnitudePower (base : Nat) (inverse : Bool) (exponent : Nat) : Binary64 :=
  match exactPower? base inverse exponent with
  | some power => power
  | none =>
      if 2 * unitsPerOne ≤ base ∧ exactLimit * unitsPerOne ≤ exponent then
        if inverse then zero false else infinite false
      else settledPower base inverse exponent

/-- An integer. -/
def isIntegral (x : Binary64) : Bool := x.toInt?.isSome

/-- An odd integer. -/
def isOdd (x : Binary64) : Bool := x.toInt?.any (· % 2 = 1)

/-- The power. -/
def pow (x y : Binary64) : Binary64 :=
  if y.isZero ∨ x = ofInt 1 then ofInt 1
  else
    let negative := x.isNegative && y.isOdd
    match x, y with
    | nan, _ => nan
    | _, nan => nan
    | infinite _, _ => if y.isNegative then zero negative else infinite negative
    | finite _ base _, infinite inverse =>
        if base = unitsPerOne then ofInt 1
        else if (unitsPerOne < base) != inverse then infinite false
        else zero false
    | finite below base _, finite inverse exponent _ =>
        if base = 0 then (if inverse then infinite negative else zero negative)
        else if below && !y.isIntegral then nan
        else if negative then (magnitudePower base inverse exponent).neg
        else magnitudePower base inverse exponent

end Binary64

end ReversePolish
