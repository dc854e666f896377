import ReversePolish.Number
import ReversePolish.Numeral

/-! # Tokens

A token is what a word stands for.  Numbers have a canonical form: an integer that fits a cell is
an integer token, also if it was written or computed as a double, and every other number is a
double.  `ofInt`, `ofIntegral` and `ofDouble` build the tokens of numbers: integers too wide for a
cell become doubles, and doubles that are integers become integers again, where they fit.

Two kinds of token can be built by hand only: a double that was not put into this form, and an
`unresolved` operator, which holds a spelling that was never looked up. -/

namespace ReversePolish

inductive Token where
  | integer (cell : Cell)
  | float (value : Binary64)
  | boolean (value : Bool)
  | operator (op : Operator)
  | unresolved (spelling : String)
  | ignored
deriving DecidableEq

namespace Token

/-! ### Building tokens -/

/-- An integer beyond the doubles is out of range, and the user is told so if it can be written
out; other failures stay what they are. -/
def outOfRange (i : Int) : Failure → Failure
  | .trouble .overflow =>
      if Numeral.isWritable i then .fault (.outOfRange i) else .trouble .undefined
  | failure => failure

/-- The token of an integer: a cell, or else the nearest double. -/
def ofInt (i : Int) : Except Failure Token :=
  match Cell.ofInt? i with
  | some cell => .ok (integer cell)
  | none => ((Number.integer i).asDouble.map float).mapError (outOfRange i)

/-- The token of a double that has to be an integer. -/
def ofIntegral (x : Binary64) : Except Failure Token :=
  if x.isIntegral then (Number.double x).truncate.bind ofInt
  else .error (.fault (.notInteger x))

/-- The token of a double: an integer, if it is one between the ends of the cells. -/
def ofDouble (x : Binary64) : Except Failure Token :=
  if x.isIntegral && Number.betweenCells x then ofIntegral x else .ok (float x)

/-- The token of a number taken as a double. -/
def ofReal (n : Number) : Except Failure Token := n.asDouble.bind ofDouble

/-- The token of a number. -/
def ofNumber : Number → Except Failure Token
  | .integer i => ofInt i
  | .double x => ofDouble x

/-- The token of the operator spelt `symbol`. -/
def ofSymbol (symbol : String) : Except Failure Token :=
  match Operator.ofSymbol? symbol with
  | some op => .ok (operator op)
  | none => .error (.fault (.unknownSymbol symbol))

/-- In canonical form: a double is no integer that a cell could hold. -/
def IsCanonical : Token → Prop
  | float x => ∀ i, x.toInt? = some i → i < cellMin ∨ cellMax < i
  | _ => True

/-! ### Questions -/

def kind : Token → Kind
  | integer _ => .integer
  | float _ => .float
  | boolean _ => .boolean
  | operator _ | unresolved _ => .operator
  | ignored => .ignored

/-- Stands for something. -/
def isLegitimate (t : Token) : Bool := t.kind != .ignored

def isNumeric (t : Token) : Bool := t.kind == .integer || t.kind == .float

def isBoolean (t : Token) : Bool := t.kind == .boolean

def isOperator (t : Token) : Bool := t.kind == .operator

/-- The number of a numeric token. -/
def number? : Token → Option Number
  | integer cell => some (.integer cell.value)
  | float x => some (.double x)
  | _ => none

/-- The number of a numeric token; the truth values count as one and zero. -/
def quantity? : Token → Option Number
  | boolean b => some (.integer b.toNat)
  | t => t.number?

/-- The quantity that arithmetic takes a token for; other tokens have no arithmetic. -/
def operand (t : Token) : Except Failure Number :=
  match t.quantity? with
  | some n => .ok n
  | none => .error (.trouble .mistyped)

/-- Equal to zero, or false. -/
def isZero (t : Token) : Bool := t.quantity?.any Number.isZero

/-- The double nearest to a quantity. -/
def toDouble (t : Token) : Except Failure Binary64 :=
  match t.quantity? with
  | some n => n.asDouble
  | none => .error (.fault (.notNumber t.kind))

/-- The truth of a quantity: its double differs from zero. -/
def truth (t : Token) : Except Failure Bool := t.toDouble.map fun x => !x.isZero

/-- Two tokens are the same if they are of one kind and their values are equal as numbers; a NaN
is not the same as itself. -/
def same : Token → Token → Bool
  | integer a, integer b => a == b
  | float x, float y => Number.eq (.double x) (.double y)
  | boolean a, boolean b => a == b
  | operator a, operator b => a == b
  | unresolved a, unresolved b => a == b
  | ignored, ignored => true
  | _, _ => false

/-! ### Text -/

/-- The token as the user sees it. -/
def display : Token → String
  | integer cell => toString cell.value
  | float x => x.fixed
  | boolean b => truthWord b
  | operator op => op.symbol
  | unresolved spelling => spelling
  | ignored => ""

/-- The value of a token in diagnostic output. -/
def valueText : Token → String
  | integer cell => toString cell.value
  | float x => x.written
  | boolean b => if b then "True" else "False"
  | operator op => op.debugText
  | unresolved spelling => Text.quoted spelling
  | ignored => "None"

/-- The token in diagnostic output. -/
def debugText (t : Token) : String :=
  "Token." ++ t.kind.label ++ "(" ++ t.valueText ++ ")"

end Token

end ReversePolish
