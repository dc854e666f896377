import ReversePolish.Binary64.Decimal
import ReversePolish.Operator
import ReversePolish.Text.Quoted

/-! # Faults

A fault is something a user can provoke; none is fatal.  `Fault` has a constructor for each cause,
`category` groups the causes as the user sees them, `message` is the sentence for the user, and
`debugText` the form the journal shows: the category with the values it was raised with.

A computation fails in one of two ways.  A fault is for the user.  `Trouble` is what the parts of
the calculator run into when they are asked for what they cannot do: arithmetic, containers, and
the checks of conditions taken for granted.  It says nothing to a user, so where it can arise it
is turned into a fault; trouble that is not ends the session. -/

namespace ReversePolish

/-- What a token is. -/
inductive Kind where
  | integer | float | boolean | operator | ignored
deriving DecidableEq, Repr

/-- The kind in a sentence. -/
def Kind.noun : Kind → String
  | .integer => "integer"
  | .float => "float"
  | .boolean => "boolean"
  | .operator => "operator"
  | .ignored => "ignored"

/-- The kind in a table. -/
def Kind.label : Kind → String
  | .integer => "INTEGER"
  | .float => "FLOAT"
  | .boolean => "BOOLEAN"
  | .operator => "OPERATOR"
  | .ignored => "IGNORED"

/-- An operator in diagnostic output. -/
def Operator.debugText (op : Operator) : String :=
  "<Operator." ++ op.name ++ ": " ++ Text.quoted op.symbol ++ ">"

inductive Fault where
  /-- No operator is spelt like this. -/
  | unknownSymbol (symbol : String)
  /-- Too many or too few operands. -/
  | arity (op : Operator) (expected found : Nat)
  /-- An operand of a kind that the operator does not take. -/
  | operandKinds (op : Operator) (kinds : List Kind)
  /-- An integer was asked for. -/
  | notInteger (value : Binary64)
  /-- A number was asked for. -/
  | notNumber (kind : Kind)
  /-- An operator token that names no operator. -/
  | notOperator (spelling : String)
  | ignoredToken
  | divisionByZero
  /-- An integer beyond the doubles. -/
  | outOfRange (value : Int)
  /-- The operator has no value there. -/
  | undefined (op : Operator)
  | stackFull (capacity : Int)
  | emptyStack
  | noLastOperator
  | noLastOperands
  | notSupported (op : Operator)
deriving DecidableEq

namespace Fault

/-- The categories of faults. -/
inductive Category where
  | unknownSymbol | arity | type | divisionByZero | domain
  | stackFull | emptyStack | noLastOperator | notSupported
deriving DecidableEq, Repr

/-- The name of a category. -/
def Category.name : Category → String
  | .unknownSymbol => "UnknownOperatorSymbol"
  | .arity => "ArityMismatch"
  | .type => "TypeMismatch"
  | .divisionByZero => "DivisionByZero"
  | .domain => "DomainError"
  | .stackFull => "StackOverflow"
  | .emptyStack => "EmptyStack"
  | .noLastOperator => "NoLastOperator"
  | .notSupported => "NotYetSupported"

def category : Fault → Category
  | unknownSymbol _ => .unknownSymbol
  | arity .. => .arity
  | operandKinds .. | notInteger _ | notNumber _ | notOperator _ | ignoredToken => .type
  | divisionByZero => .divisionByZero
  | outOfRange _ | undefined _ => .domain
  | stackFull _ => .stackFull
  | emptyStack => .emptyStack
  | noLastOperator | noLastOperands => .noLastOperator
  | notSupported _ => .notSupported

/-- The sentence for the user. -/
def message : Fault → String
  | unknownSymbol symbol => "Failed to create operator from symbol: " ++ Text.quoted symbol
  | arity op expected found =>
      "Operator " ++ op.symbol ++ " expects " ++ expected.repr ++ " operand(s), found " ++
        found.repr
  | operandKinds op kinds =>
      "Bad operand type(s) for " ++ op.symbol ++ ": " ++ ", ".intercalate (kinds.map Kind.noun)
  | notInteger value => value.written ++ " is not an integer"
  | notNumber kind => kind.noun ++ " is not a number"
  | notOperator spelling => "Not an operator: " ++ Text.quoted spelling
  | ignoredToken => "Cannot push an ignored token"
  | divisionByZero => "Division by zero"
  | outOfRange value => toString value ++ " is out of range"
  | undefined op => "Math domain error in " ++ op.symbol
  | stackFull capacity => "Stack is full (" ++ toString capacity ++ " elements)"
  | emptyStack => "Empty stack"
  | noLastOperator => "No operator applied yet"
  | noLastOperands => "No operands to recall"
  | notSupported op => "Operator " ++ op.symbol ++ " is not supported yet"

/-- The values a fault was raised with, in diagnostic form. -/
def details : Fault → List String
  | unknownSymbol symbol => [Text.quoted symbol]
  | arity op expected found => [op.debugText, expected.repr, found.repr]
  | stackFull capacity => [toString capacity]
  | notSupported op => [op.debugText]
  | divisionByZero | emptyStack | noLastOperator => []
  | fault => [Text.quoted fault.message]

/-- The fault in diagnostic output. -/
def debugText (fault : Fault) : String :=
  fault.category.name ++ "(" ++ ", ".intercalate fault.details ++ ")"

end Fault

/-! ### Failures -/

inductive Trouble where
  /-- A divisor is zero. -/
  | divisionByZero
  /-- There is no such value. -/
  | undefined
  /-- The value is beyond the doubles. -/
  | overflow
  /-- A value has a type without such an operation. -/
  | mistyped
  /-- A container has no such place. -/
  | missing
  /-- A condition taken for granted does not hold. -/
  | assertion
deriving DecidableEq, Repr

inductive Failure where
  | fault (fault : Fault)
  | trouble (trouble : Trouble)
deriving DecidableEq

end ReversePolish
