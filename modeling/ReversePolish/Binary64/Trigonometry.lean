import ReversePolish.Enclosure.Series

/-! # Circular functions

All six are rounded correctly as soon as an attempt of `Enclosure.settle` finds an enclosure of
the exact value whose ends agree.  They are computed on magnitudes, the signs follow from symmetry.

`turned` takes whole quarter turns off an angle; for a large angle it works with as many more
places as the angle has digits before the point, so the rest is as sharp as that of a small one.
`arctanRatio` brings a fraction down to at most a third: a fraction above one is turned over, and
what is still above a quarter is compared with one half.

Each value is read off between bounds that it is known to keep; so the functions are finite
wherever they are defined. -/

namespace ReversePolish

attribute [local instance (high)] instPowNat

namespace Enclosure

/-! ### Sine and cosine -/

/-- The number of binary digits of a magnitude before the point. -/
def wholeDigits (units : Nat) : Nat := units.log2 + 1 - Binary64.unitPlaces

/-- An angle as whole quarter turns and a rest. -/
def turned (p units : Nat) : Nat × Enclosure :=
  let angle := ratio p units Binary64.unitsPerOne
  let quarter := halfPi p
  let turns := (angle.lo / quarter.hi).toNat
  (turns, angle.sub (quarter.scale turns))

/-- The sine of an angle that is a number of quarter turns and a rest. -/
def sinTurned (p : Nat) (turns : Nat) (rest : Enclosure) : Enclosure :=
  let value := if turns % 2 = 0 then sinSeries p rest else cosSeries p rest
  if turns % 4 < 2 then value else neg value

/-- The sine of a magnitude. -/
def sinEnclosure (p units : Nat) : Enclosure :=
  let (turns, rest) := turned p units
  sinTurned p turns rest

/-- The cosine of a magnitude: the sine a quarter turn on. -/
def cosEnclosure (p units : Nat) : Enclosure :=
  let (turns, rest) := turned p units
  sinTurned p (turns + 1) rest

/-- A bound on the tangents of the doubles: none of them comes closer than `2^-61` to an odd
multiple of a quarter turn. -/
def tanBound : Nat := 0x4000000000000000

/-- The tangent of a magnitude. -/
def tanEnclosure (p units : Nat) : Enclosure :=
  ((sinEnclosure p units).over? p (cosEnclosure p units)).getD (symmetric p tanBound)

/-! ### Arc tangent -/

/-- The arc tangent of a fraction of at most one. -/
def arctanProper (p n d : Nat) : Enclosure :=
  if 4 * n ≤ d then arctanSeries p (ratio p n d)
  else add (arctanSeries p (ratio p 1 2))
    (arctanSeries p (ratio p (2 * (n : Int) - d) (2 * d + n)))

/-- The arc tangent of the fraction `n / d`. -/
def arctanRatio (p n d : Nat) : Enclosure :=
  if n ≤ d then arctanProper p n d else sub (halfPi p) (arctanProper p d n)

/-- The arc sine of a magnitude below one: the arc tangent of `x / √(1 - x²)`. -/
def arcsinEnclosure (p units : Nat) : Enclosure :=
  let one := Binary64.unitsPerOne
  let root := rootOfRatio p (one * one - units * units) (one * one)
  let numerator := units * 2 ^ p
  ⟨(arctanRatio p numerator (one * root.hi.toNat)).lo,
    (arctanRatio p numerator (one * root.lo.toNat)).hi⟩

end Enclosure

namespace Binary64

open Enclosure (settle endsWithin isFinite_settle wholeDigits sinEnclosure cosEnclosure
  tanEnclosure tanBound arctanRatio arcsinEnclosure halfPi)

/-- The number below a sign. -/
def withSign (negative : Bool) (x : Binary64) : Binary64 := if negative then x.neg else x

def sin : Binary64 → Binary64
  | finite negative units fits =>
      if units = 0 then finite negative units fits
      else withSign negative <| settle fun p =>
        let q := p + wholeDigits units
        endsWithin q 1 (sinEnclosure q units)
  | _ => nan

def cos : Binary64 → Binary64
  | finite _ units _ =>
      settle fun p =>
        let q := p + wholeDigits units
        endsWithin q 1 (cosEnclosure q units)
  | _ => nan

def tan : Binary64 → Binary64
  | finite negative units fits =>
      if units = 0 then finite negative units fits
      else withSign negative <| settle fun p =>
        let q := p + wholeDigits units
        endsWithin q tanBound (tanEnclosure q units)
  | _ => nan

def arctan : Binary64 → Binary64
  | finite negative units fits =>
      if units = 0 then finite negative units fits
      else withSign negative <| settle fun p => endsWithin p 2 (arctanRatio p units unitsPerOne)
  | infinite negative => withSign negative <| settle fun p => endsWithin p 2 (halfPi p)
  | nan => nan

/-- The arc sine; it has no value beyond one. -/
def arcsin : Binary64 → Binary64
  | finite negative units fits =>
      if units = 0 then finite negative units fits
      else if units < unitsPerOne then
        withSign negative <| settle fun p => endsWithin p 2 (arcsinEnclosure p units)
      else if units = unitsPerOne then
        withSign negative <| settle fun p => endsWithin p 2 (halfPi p)
      else nan
  | _ => nan

/-- The arc cosine; it has no value beyond one. -/
def arccos : Binary64 → Binary64
  | finite negative units _ =>
      if units < unitsPerOne then
        settle fun p =>
          let complement := arcsinEnclosure p units
          endsWithin p 4 (if negative then (halfPi p).add complement else (halfPi p).sub complement)
      else if units = unitsPerOne then
        if negative then settle fun p => endsWithin p 4 ((halfPi p).scale 2) else zero false
      else nan
  | _ => nan

/-! ### Where the values are finite -/

@[simp] theorem isFinite_withSign (negative : Bool) (x : Binary64) :
    (withSign negative x).isFinite = x.isFinite := by
  cases negative <;> cases x <;> rfl

theorem isFinite_sin {x : Binary64} (h : x.isFinite) : x.sin.isFinite := by
  cases x with
  | finite negative units fits =>
      dsimp only [sin]
      split
      · rfl
      · rw [isFinite_withSign]
        exact isFinite_settle 1 (by decide) _ _
  | _ => cases h

theorem isFinite_cos {x : Binary64} (h : x.isFinite) : x.cos.isFinite := by
  cases x with
  | finite negative units fits => exact isFinite_settle 1 (by decide) _ _
  | _ => cases h

theorem isFinite_tan {x : Binary64} (h : x.isFinite) : x.tan.isFinite := by
  cases x with
  | finite negative units fits =>
      dsimp only [tan]
      split
      · rfl
      · rw [isFinite_withSign]
        exact isFinite_settle tanBound (by decide) _ _
  | _ => cases h

theorem isFinite_arctan {x : Binary64} (h : x.isNaN = false) : x.arctan.isFinite := by
  cases x with
  | finite negative units fits =>
      dsimp only [arctan]
      split
      · rfl
      · rw [isFinite_withSign]
        exact isFinite_settle 2 (by decide) _ _
  | infinite negative =>
      dsimp only [arctan]
      rw [isFinite_withSign]
      exact isFinite_settle 2 (by decide) _ _
  | nan => cases h

theorem isFinite_arcsin {negative : Bool} {units : Nat} {fits : Fits units}
    (h : units ≤ unitsPerOne) : (finite negative units fits).arcsin.isFinite := by
  dsimp only [arcsin]
  split
  · rfl
  · split
    · rw [isFinite_withSign]
      exact isFinite_settle 2 (by decide) _ _
    · rw [if_pos (by omega), isFinite_withSign]
      exact isFinite_settle 2 (by decide) _ _

theorem isFinite_arccos {negative : Bool} {units : Nat} {fits : Fits units}
    (h : units ≤ unitsPerOne) : (finite negative units fits).arccos.isFinite := by
  dsimp only [arccos]
  split
  · exact isFinite_settle 4 (by decide) _ _
  · rw [if_pos (by omega)]
    split
    · exact isFinite_settle 4 (by decide) _ _
    · rfl

end Binary64

end ReversePolish
