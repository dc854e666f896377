import ReversePolish.Token

/-! # Evaluation

`evaluate` applies an operator to operands, the one that lay lowest on the stack first.  It checks
the number of the operands and then their kinds; only then does `dispatch` compute, by the rule
that `Operator.rule` gives.  Trouble that arithmetic runs into is reported as a division by zero
or as a place where the operator has no value; this covers `dispatch` and nothing else. -/

namespace ReversePolish

/-- How an operator computes. -/
inductive Rule where
  /-- A number from two numbers. -/
  | arithmetic (f : Number → Number → Except Failure Number)
  /-- A number from one. -/
  | function (f : Number → Except Failure Number)
  /-- A truth value from two numbers. -/
  | comparison (f : Number → Number → Bool)
  /-- A truth value from two. -/
  | connective (f : Bool → Bool → Bool)
  /-- The other truth value. -/
  | negation
  /-- Nothing to compute. -/
  | structural

namespace Operator

def rule : Operator → Rule
  | add => .arithmetic Number.add
  | sub => .arithmetic Number.sub
  | mul => .arithmetic Number.mul
  | div => .arithmetic Number.div
  | eucDiv => .arithmetic Number.floorDiv
  | mod => .arithmetic Number.floorMod
  | pow => .arithmetic Number.pow
  | neg => .function fun a => .ok a.neg
  | sin => .function (Number.function .sin)
  | cos => .function (Number.function .cos)
  | tan => .function (Number.function .tan)
  | arcsin => .function (Number.function .arcsin)
  | arccos => .function (Number.function .arccos)
  | arctan => .function (Number.function .arctan)
  | sqrt => .function (Number.function .sqrt)
  | exp => .function (Number.function .exp)
  | ln => .function (Number.function .ln)
  | eq => .comparison Number.eq
  | neq => .comparison fun a b => !a.eq b
  | le => .comparison Number.le
  | lt => .comparison Number.lt
  | ge => .comparison fun a b => b.le a
  | gt => .comparison fun a b => b.lt a
  | and => .connective Bool.and
  | or => .connective Bool.or
  | not => .negation
  | dup | drop | swap | lastop | lastargs | undo | redo | clear => .structural

/-- Takes truth values as operands. -/
def takesTruth : Operator → Bool
  | eq | neq | and | or | not => true
  | _ => false

/-- Takes a token as an operand. -/
def accepts (op : Operator) (t : Token) : Bool := t.isNumeric || op.takesTruth && t.isBoolean

end Operator

/-- The operand of an operator that takes one. -/
def unpackOne : List Token → Except Failure Number
  | [a] => a.operand
  | _ => .error (.trouble .assertion)

/-- The operands of an operator that takes two. -/
def unpackTwo : List Token → Except Failure (Number × Number)
  | [a, b] => do return (← a.operand, ← b.operand)
  | _ => .error (.trouble .assertion)

/-- Computes by the rule of the operator. -/
def dispatch (op : Operator) (operands : List Token) : Except Failure Token :=
  match op.rule with
  | .arithmetic f => do
      let (a, b) ← unpackTwo operands
      Token.ofNumber (← f a b)
  | .function f => do Token.ofNumber (← f (← unpackOne operands))
  | .comparison f => do
      let (a, b) ← unpackTwo operands
      return .boolean (f a b)
  | .connective f => do
      match ← operands.mapM Token.truth with
      | [a, b] => return .boolean (f a b)
      | _ => throw (.trouble .mistyped)
  | .negation => do
      match ← operands.mapM Token.truth with
      | [a] => return .boolean !a
      | _ => throw (.trouble .mistyped)
  | .structural => .error (.fault (.notSupported op))

/-- Trouble in arithmetic as the user is told of it; other failures stay what they are. -/
def Failure.reported (op : Operator) : Failure → Failure
  | trouble .divisionByZero => fault .divisionByZero
  | trouble .undefined => fault (.undefined op)
  | trouble .overflow => fault (.undefined op)
  | failure => failure

/-- Applies an operator to its operands. -/
def evaluate (op : Operator) (operands : List Token) : Except Failure Token :=
  if operands.length ≠ op.arity then
    .error (.fault (.arity op op.arity operands.length))
  else if operands.all op.accepts then
    (dispatch op operands).mapError (Failure.reported op)
  else
    .error (.fault (.operandKinds op (operands.map Token.kind)))

end ReversePolish
