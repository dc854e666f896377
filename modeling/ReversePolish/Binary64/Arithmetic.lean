import ReversePolish.Binary64.Rounding

/-! # Arithmetic on doubles

Each operation takes the exact result, a quotient of units, and rounds it once.  The sign of an
exact zero follows the format: a sum is negative only if both terms are, a product by the rule of
signs.

The remainder of a division takes the sign of the divisor (`floorMod`), and the quotient is
rounded down (`floorDiv`).  The quotient is computed from the remainder, through rounded
operations, and then snapped to the nearest integer: for operands far apart this decides the last
digit.

A square root is taken two binary places below one unit; if it is not exact, half a step more keeps
it away from every midpoint without carrying it past one, so that rounding the quotient rounds the
root. -/

namespace ReversePolish

/-- The root of a square. -/
def exactRoot? (n : Nat) : Option Nat :=
  let root := n.sqrt
  if root * root = n then some root else none

namespace Binary64

/-! ### Sum, product, quotient -/

def add : Binary64 → Binary64 → Binary64
  | nan, _ => nan
  | _, nan => nan
  | infinite a, infinite b => if a = b then infinite a else nan
  | infinite a, finite .. => infinite a
  | finite .., infinite b => infinite b
  | finite a m _, finite b n _ =>
      let sum := signed a m + signed b n
      ofUnits (if sum = 0 then a && b else sum < 0) sum.natAbs

def sub (x y : Binary64) : Binary64 := add x y.neg

def mul : Binary64 → Binary64 → Binary64
  | nan, _ => nan
  | _, nan => nan
  | infinite a, infinite b => infinite (a != b)
  | infinite a, finite b n _ => if n = 0 then nan else infinite (a != b)
  | finite a m _, infinite b => if m = 0 then nan else infinite (a != b)
  | finite a m _, finite b n _ => ofUnits (a != b) (m * n) unitsPerOne

def div : Binary64 → Binary64 → Binary64
  | nan, _ => nan
  | _, nan => nan
  | infinite _, infinite _ => nan
  | infinite a, finite b .. => infinite (a != b)
  | finite a .., infinite b => zero (a != b)
  | finite a m _, finite b n _ =>
      if n = 0 then (if m = 0 then nan else infinite (a != b)) else ofRatio (a != b) m n

/-! ### Rounding down -/

/-- The greatest integer not above a double, with the sign of the double. -/
def floor : Binary64 → Binary64
  | finite negative units _ =>
      ofRatio negative
        (if negative then (units + (unitsPerOne - 1)) / unitsPerOne else units / unitsPerOne)
  | x => x

/-- What is left of `x` after taking away whole `y`s, with the sign of `x`. -/
def truncMod : Binary64 → Binary64 → Binary64
  | nan, _ => nan
  | _, nan => nan
  | infinite _, _ => nan
  | finite a m fits, infinite _ => finite a m fits
  | finite a m _, finite _ n _ => if n = 0 then nan else ofUnits a (m % n)

/-- The signs of a remainder and of its divisor differ. -/
def disagrees (rest y : Binary64) : Bool :=
  !rest.isZero && (rest.isNegative != y.isNegative)

/-- The remainder of the division that rounds down: it takes the sign of the divisor, a zero
included. -/
def floorMod (x y : Binary64) : Binary64 :=
  let rest := truncMod x y
  if rest.isZero then zero y.isNegative
  else if disagrees rest y then add rest y
  else rest

/-- Greater than one half. -/
def exceedsHalf : Binary64 → Bool
  | finite negative units _ => !negative && unitsPerOne < 2 * units
  | infinite negative => !negative
  | nan => false

/-- The quotient rounded down. -/
def floorDiv (x y : Binary64) : Binary64 :=
  let rest := truncMod x y
  let exact := div (sub x rest) y
  let quotient := if disagrees rest y then sub exact (ofInt 1) else exact
  if quotient.isZero then
    zero (div x y).isNegative
  else
    let below := quotient.floor
    if exceedsHalf (sub quotient below) then add below (ofInt 1) else below

/-! ### Square roots -/

/-- The square root of a magnitude in units, as a numerator over eight units. -/
def rootOverEight (units : Nat) : Nat :=
  let square := 16 * units * unitsPerOne
  let root := square.sqrt
  if root * root = square then 2 * root else 2 * root + 1

/-- The square root; below zero there is none, and the root of a negative zero is that zero. -/
def sqrt : Binary64 → Binary64
  | finite negative units fits =>
      if units = 0 then finite negative units fits
      else if negative then nan
      else ofUnits false (rootOverEight units) 8
  | infinite negative => if negative then nan else infinite false
  | nan => nan

end Binary64

end ReversePolish
