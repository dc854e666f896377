/-! # Operators

An operator has a symbol, which is the word that calls it, a name for diagnostic output, and an
arity.  Operators of arity zero are *structural*: they work on the stack itself, not on operands
taken off it. -/

namespace ReversePolish

inductive Operator where
  | add | sub | mul | div | eucDiv | mod | pow | neg
  | sin | cos | tan | arcsin | arccos | arctan | sqrt | exp | ln
  | eq | neq | le | lt | ge | gt
  | and | or | not
  | dup | drop | swap | lastop | lastargs | undo | redo | clear
deriving DecidableEq, Repr

namespace Operator

/-- All operators, in the order in which they are listed to the user. -/
def all : List Operator :=
  [add, sub, mul, div, eucDiv, mod, pow, neg,
    sin, cos, tan, arcsin, arccos, arctan, sqrt, exp, ln,
    eq, neq, le, lt, ge, gt,
    and, or, not,
    dup, drop, swap, lastop, lastargs, undo, redo, clear]

theorem mem_all (op : Operator) : op ∈ all := by cases op <;> decide

/-- The word that calls the operator. -/
def symbol : Operator → String
  | add => "+"
  | sub => "-"
  | mul => "*"
  | div => "/"
  | eucDiv => "DIV"
  | mod => "MOD"
  | pow => "POW"
  | neg => "NEG"
  | sin => "SIN"
  | cos => "COS"
  | tan => "TAN"
  | arcsin => "ARCSIN"
  | arccos => "ARCCOS"
  | arctan => "ARCTAN"
  | sqrt => "SQRT"
  | exp => "EXP"
  | ln => "LN"
  | eq => "=="
  | neq => "!="
  | le => "<="
  | lt => "<"
  | ge => ">="
  | gt => ">"
  | and => "AND"
  | or => "OR"
  | not => "NOT"
  | dup => "DUP"
  | drop => "DROP"
  | swap => "SWAP"
  | lastop => "LASTOP"
  | lastargs => "LASTARGS"
  | undo => "UNDO"
  | redo => "REDO"
  | clear => "CLEAR"

/-- The name in diagnostic output: the symbol, where that is a name. -/
def name : Operator → String
  | add => "ADD"
  | sub => "SUB"
  | mul => "MUL"
  | div => "DIV"
  | eucDiv => "EUC_DIV"
  | eq => "EQ"
  | neq => "NEQ"
  | le => "LE"
  | lt => "LT"
  | ge => "GE"
  | gt => "GT"
  | op => op.symbol

/-- The number of operands. -/
def arity : Operator → Nat
  | add | sub | mul | div | eucDiv | mod | pow => 2
  | eq | neq | le | lt | ge | gt => 2
  | and | or => 2
  | neg | sin | cos | tan | arcsin | arccos | arctan | sqrt | exp | ln => 1
  | not => 1
  | dup | drop | swap | lastop | lastargs | undo | redo | clear => 0

/-- Works on the stack itself. -/
def isStructural (op : Operator) : Bool := op.arity == 0

/-- The operator spelt exactly `symbol`. -/
def ofSymbol? (symbol : String) : Option Operator := all.find? fun op => op.symbol == symbol

theorem ofSymbol?_symbol (op : Operator) : ofSymbol? op.symbol = some op := by
  cases op <;> decide

theorem symbol_of_ofSymbol? {symbol : String} {op : Operator} (h : ofSymbol? symbol = some op) :
    op.symbol = symbol := by
  have := List.find?_some h
  simpa using this

theorem arity_le_two (op : Operator) : op.arity ≤ 2 := by cases op <;> decide

end Operator

/-! ### Words that are no operators -/

/-- The words for the truth values. -/
def trueWord : String := "TRUE"

def falseWord : String := "FALSE"

/-- A truth value as a word. -/
def truthWord (b : Bool) : String := if b then trueWord else falseWord

/-- The words reserved beside the operators. -/
def literalWords : List String := ["(", ")", trueWord, falseWord]

/-- Every word with a fixed meaning. -/
def reservedWords : List String := Operator.all.map Operator.symbol ++ literalWords

end ReversePolish
