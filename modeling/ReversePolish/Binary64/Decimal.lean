import ReversePolish.Binary64.Rounding

/-! # Doubles in decimal

`ofDecimal` reads a coefficient times a power of ten and rounds once.  Exponents may have
thousands of digits: a coefficient that is not zero overflows under any exponent above 400, and
vanishes under one that exceeds its own length by far, so that the power is taken only where it is
short.

`fixed` is the text of a double in positional notation with six decimal places, rounded exactly
once; a half goes to the even neighbour.  The sign of the double is kept also where only zeros are
left.

`shortest` finds the decimal fraction with the fewest digits that reads back as a given double,
and of those the nearest.  With `n` digits only the two neighbours of the double on the grid of
`n` digits can be the nearest, so `neighbour?` tries those two.  The exact expansion stands behind
the search; seventeen digits always suffice.  `written` is the text of a double in these digits:
positional from a ten-thousandth up to sixteen digits before the point, else with an exponent. -/

namespace ReversePolish.Binary64

attribute [local instance (high)] instPowNat

/-! ### Reading -/

/-- Above this exponent of ten every coefficient but zero is beyond the doubles. -/
def overflowExponent : Nat := 400

/-- The value of `coefficient * 10 ^ -places` is below half a unit: `10 ^ places` has at least
`3 * places` binary digits. -/
def vanishes (coefficient places : Nat) : Bool := coefficient.log2 + 1080 < 3 * places

/-- The double nearest to `± coefficient * 10 ^ exponent`. -/
def ofDecimal (negative : Bool) (coefficient : Nat) : Int → Binary64
  | .ofNat exponent =>
      if coefficient = 0 then zero negative
      else if overflowExponent < exponent then infinite negative
      else ofRatio negative (coefficient * 10 ^ exponent)
  | .negSucc exponent =>
      let places := exponent + 1
      if vanishes coefficient places then zero negative
      else ofRatio negative coefficient (10 ^ places)

/-! ### Six places -/

/-- The number of decimal places shown. -/
def shownPlaces : Nat := 6

/-- The magnitude as a count of millionths. -/
def millionths (units : Nat) : Nat := nearest (units * 10 ^ shownPlaces) unitsPerOne

/-- A minus sign where it belongs. -/
def minus (negative : Bool) : List Char := if negative then ['-'] else []

/-- A double with six decimal places. -/
def fixedChars : Binary64 → List Char
  | finite negative units _ =>
      let count := millionths units
      minus negative ++ Nat.toDigits 10 (count / 10 ^ shownPlaces) ++
        '.' :: (Nat.toDigits 10 (count % 10 ^ shownPlaces)).leftpad shownPlaces '0'
  | infinite negative => minus negative ++ ['i', 'n', 'f']
  | nan => ['n', 'a', 'n']

/-- A double with six decimal places. -/
def fixed (x : Binary64) : String := String.ofList x.fixedChars

/-! ### The fewest digits that read back -/

/-- A decimal fraction: `coefficient * 10 ^ exponent`. -/
structure Decimal where
  coefficient : Nat
  exponent : Int
deriving DecidableEq, Repr

/-- A magnitude as a multiple of `10 ^ -1074`: every double ends within 1074 decimal places. -/
def expansion (units : Nat) : Nat := units * 5 ^ unitPlaces

/-- The exact decimal expansion. -/
def exactDecimal (units : Nat) : Decimal := ⟨expansion units, -unitPlaces⟩

/-- The decimal fraction reads back as the magnitude. -/
def readsBack (units : Nat) (d : Decimal) : Bool :=
  match ofDecimal false d.coefficient d.exponent with
  | finite _ back _ => back = units
  | _ => false

/-- On the grid that is coarser than the expansion by `cut` digits, the neighbour of the magnitude
that reads back; the nearer one if both do. -/
def neighbour? (units cut : Nat) : Option Decimal :=
  let step := 10 ^ cut
  let below := expansion units / step
  let place (k : Nat) : Decimal := ⟨k, (cut : Int) - unitPlaces⟩
  match readsBack units (place below), readsBack units (place (below + 1)) with
  | true, true => some (place (nearest (expansion units) step))
  | true, false => some (place below)
  | false, true => some (place (below + 1))
  | false, false => none

/-- The decimal fraction with the fewest digits that reads back. -/
def shortest (units : Nat) : Decimal :=
  let length := (Nat.toDigits 10 (expansion units)).length
  ((List.range 17).findSome? fun n => neighbour? units (length - (n + 1))).getD
    (exactDecimal units)

/-! ### Writing the fewest digits -/

/-- The decimal exponents of the first digit that are written positionally. -/
def isPositional (exponent : Int) : Bool := -4 ≤ exponent && exponent < 16

/-- The digits with the decimal point after `point` of them. -/
def positional (digits : List Char) (point : Int) : List Char :=
  match point with
  | .ofNat before =>
      if before = 0 then '0' :: '.' :: digits
      else if digits.length ≤ before then
        digits ++ List.replicate (before - digits.length) '0' ++ ['.', '0']
      else
        digits.take before ++ '.' :: digits.drop before
  | .negSucc gap => '0' :: '.' :: (List.replicate (gap + 1) '0' ++ digits)

/-- A decimal exponent, with its sign and two digits at least. -/
def exponentChars (exponent : Int) : List Char :=
  'e' :: (if exponent < 0 then '-' else '+') :: (Nat.toDigits 10 exponent.natAbs).leftpad 2 '0'

/-- The digits with the point after the first and an exponent. -/
def scientific (digits : List Char) (exponent : Int) : List Char :=
  (match digits with
    | [] => []
    | [d] => [d]
    | d :: ds => d :: '.' :: ds) ++ exponentChars exponent

/-- The text of a decimal fraction; zeros at the end of the coefficient are not written. -/
def Decimal.chars (d : Decimal) : List Char :=
  if d.coefficient = 0 then ['0', '.', '0']
  else
    let all := Nat.toDigits 10 d.coefficient
    let digits := (all.reverse.dropWhile (· = '0')).reverse
    let point := all.length + d.exponent
    if isPositional (point - 1) then positional digits point
    else scientific digits (point - 1)

/-- A double in the fewest digits that read back. -/
def writtenChars : Binary64 → List Char
  | finite negative units _ => minus negative ++ (shortest units).chars
  | infinite negative => minus negative ++ ['i', 'n', 'f']
  | nan => ['n', 'a', 'n']

/-- A double in the fewest digits that read back. -/
def written (x : Binary64) : String := String.ofList x.writtenChars

end ReversePolish.Binary64
