import ReversePolish.Binary64.Arithmetic
import ReversePolish.Binary64.Power
import ReversePolish.Binary64.Trigonometry
import ReversePolish.Fault

/-! # Numbers

A number is an integer of any size or a double.  Two integers are added, subtracted and multiplied
exactly; an integer that meets a double is rounded to one first.  The integers of the calculator
fill a 64 bit signed cell of its stack: the result is put into a cell if it fits.

Comparison is always exact.  `Place` is the line of the numbers that are compared, counted in units
and closed by the two infinities.  Doubles and integers both have a place on it, so no operand is
rounded to the type of the other first.

Arithmetic runs into `Trouble` where it has no result: a divisor of zero, an integer beyond the
doubles that is to be rounded, no number from numbers, an infinity from finite operands.  A NaN or
an infinity that comes out of operands of its kind is a result.  `div`, `floorDiv`, `floorMod` and
`pow` are the operations of the calculator; they look for a division by zero before they compute,
and report it as a fault. -/

namespace ReversePolish

attribute [local instance (high)] instPowNat

/-! ### Cells -/

/-- The least integer of a cell: `-2^63`. -/
def cellMin : Int := -9223372036854775808

/-- The greatest integer of a cell: `2^63 - 1`. -/
def cellMax : Int := 9223372036854775807

/-- An integer that fits a 64 bit signed cell. -/
structure Cell where
  value : Int
  min_le : cellMin ≤ value
  le_max : value ≤ cellMax
deriving DecidableEq

namespace Cell

/-- The cell of an integer, if it fits. -/
def ofInt? (i : Int) : Option Cell :=
  if h : cellMin ≤ i ∧ i ≤ cellMax then some ⟨i, h.1, h.2⟩ else none

end Cell

/-! ### Places -/

/-- A point of the number line in units, or one of its two ends. -/
inductive Place where
  | bottom
  | point (units : Int)
  | top
deriving DecidableEq, Repr

namespace Place

/-- `p` lies strictly left of `q`. -/
def before : Place → Place → Bool
  | bottom, bottom => false
  | bottom, _ => true
  | point _, bottom => false
  | point m, point n => m < n
  | point _, top => true
  | top, _ => false

/-- The place of an integer. -/
def ofInt (i : Int) : Place := point (i * Binary64.unitsPerOne)

end Place

/-- The place of a double; a NaN has none. -/
def Binary64.place? : Binary64 → Option Place
  | .finite negative units _ => some (.point (signed negative units))
  | .infinite negative => some (if negative then .bottom else .top)
  | .nan => none

/-! ### Numbers -/

inductive Number where
  | integer (i : Int)
  | double (x : Binary64)
deriving DecidableEq

namespace Number

/-- The double nearest to a number; beyond the doubles there is none. -/
def asDouble : Number → Except Failure Binary64
  | integer i =>
      let nearest := Binary64.ofInt i
      if nearest.isFinite then .ok nearest else .error (.trouble .overflow)
  | double x => .ok x

/-- The integer part of a number. -/
def truncate : Number → Except Failure Int
  | integer i => .ok i
  | double (.finite negative units _) =>
      .ok (Binary64.signed negative (units / Binary64.unitsPerOne))
  | double (.infinite _) => .error (.trouble .overflow)
  | double .nan => .error (.trouble .undefined)

/-- The place of a number on the line; a NaN has none. -/
def place? : Number → Option Place
  | integer i => some (.ofInt i)
  | double x => x.place?

def isZero : Number → Bool
  | integer i => i == 0
  | double x => x.isZero

/-! ### Comparison -/

def lt (a b : Number) : Bool :=
  match a.place?, b.place? with
  | some p, some q => p.before q
  | _, _ => false

def eq (a b : Number) : Bool :=
  match a.place?, b.place? with
  | some p, some q => p = q
  | _, _ => false

def le (a b : Number) : Bool := a.lt b || a.eq b

/-! ### Arithmetic -/

/-- Exact on integers, else on doubles. -/
def lift (exact : Int → Int → Int) (rounded : Binary64 → Binary64 → Binary64) :
    Number → Number → Except Failure Number
  | integer a, integer b => .ok (integer (exact a b))
  | a, b => do return double (rounded (← a.asDouble) (← b.asDouble))

def add (a b : Number) : Except Failure Number := lift (· + ·) .add a b

def sub (a b : Number) : Except Failure Number := lift (· - ·) .sub a b

def mul (a b : Number) : Except Failure Number := lift (· * ·) .mul a b

def neg : Number → Number
  | integer i => integer (-i)
  | double x => double x.neg

/-- The quotient of two integers, rounded once. -/
def ratio (a b : Int) : Except Failure Number :=
  let nearest := Binary64.ofRatio ((a < 0) != (b < 0)) a.natAbs b.natAbs
  if nearest.isFinite then .ok (double nearest) else .error (.trouble .overflow)

/-- The quotient as a double. -/
def quotient (a b : Number) : Except Failure Number :=
  if b.isZero then .error (.trouble .divisionByZero)
  else
    match a, b with
    | integer a, integer b => ratio a b
    | a, b => do return double ((← a.asDouble).div (← b.asDouble))

/-- The quotient rounded down. -/
def floorQuotient (a b : Number) : Except Failure Number :=
  if b.isZero then .error (.trouble .divisionByZero) else lift Int.fdiv .floorDiv a b

/-- The remainder of the quotient rounded down. -/
def remainder (a b : Number) : Except Failure Number :=
  if b.isZero then .error (.trouble .divisionByZero) else lift Int.fmod .floorMod a b

/-- A value of a function of doubles.  No number from a number is trouble, and so is an infinity
from finite arguments. -/
def checked (finite : Bool) (ordered : Bool) (value : Binary64) : Except Failure Binary64 :=
  if value.isNaN && ordered then .error (.trouble .undefined)
  else if value.isInfinite && finite then .error (.trouble .overflow)
  else .ok value

/-- A function of one double. -/
def function (f : Binary64 → Binary64) (a : Number) : Except Failure Number := do
  let x ← a.asDouble
  return double (← checked x.isFinite (!x.isNaN) (f x))

/-- The power as a double. -/
def power (a b : Number) : Except Failure Binary64 := do
  let x ← a.asDouble
  let y ← b.asDouble
  let finite := x.isFinite && y.isFinite
  checked finite finite (x.pow y)

/-- An integral power; the powers of one, zero and minus one are not multiplied out. -/
def integralPower (base : Int) (exponent : Nat) : Int :=
  if base = 1 ∨ exponent = 0 then 1
  else if base = 0 then 0
  else if base = -1 then (if exponent % 2 = 0 then 1 else -1)
  else base ^ exponent

/-- A magnitude that a cell can hold. -/
def withinCell (x : Binary64) : Bool := (double x.abs).le (integer cellMax)

/-- A double between the ends of the cells. -/
def betweenCells (x : Binary64) : Bool :=
  (integer cellMin).le (double x) && (double x).le (integer cellMax)

/-! ### Operations of the calculator -/

/-- The quotient: an integer if it comes out even. -/
def div (a b : Number) : Except Failure Number :=
  if b.isZero then .error (.fault .divisionByZero)
  else
    match a, b with
    | integer i, integer j => if i.fmod j = 0 then .ok (integer (i.fdiv j)) else quotient a b
    | _, _ => quotient a b

def floorDiv (a b : Number) : Except Failure Number :=
  if b.isZero then .error (.fault .divisionByZero) else floorQuotient a b

def floorMod (a b : Number) : Except Failure Number :=
  if b.isZero then .error (.fault .divisionByZero) else remainder a b

/-- The power.  It is exact for integers if its rounded value is within a cell, so that no exact
power grows beyond that. -/
def pow (a b : Number) : Except Failure Number :=
  if a.isZero && b.lt (integer 0) then .error (.fault .divisionByZero)
  else do
    let approximate ← power a b
    match a, b with
    | integer base, integer exponent =>
        if 0 ≤ exponent && withinCell approximate then
          return integer (integralPower base exponent.toNat)
        else return double approximate
    | _, _ => return double approximate

end Number

end ReversePolish
