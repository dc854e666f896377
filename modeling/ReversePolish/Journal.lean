import ReversePolish.Machine

/-! # The journal

The journal tells a reader at debug level what the calculator did.  `Event` lists what can be
told; each event has a source, the part of the calculator that reports it, and a text.

Nothing computes with events: `Machine.pushEvents` reads them off the machine before a push and
the outcome of the push. -/

namespace ReversePolish

inductive Event where
  /-- A word stands for nothing. -/
  | ignoring (word : String)
  /-- An operator was applied to operands. -/
  | evaluated (op : Operator) (operands : List Token) (result : Token)
  /-- An operator ran, and left this many tokens. -/
  | applied (op : Operator) (size : Nat)
  /-- The operands of an operator that failed are back. -/
  | rolledBack (op : Operator)
  /-- A line was given up. -/
  | failed (fault : Fault) (line : String)
deriving DecidableEq

namespace Event

/-- The part of the calculator that reports. -/
def source : Event → String
  | ignoring _ => "pascaline.lexer"
  | evaluated .. => "pascaline.operators"
  | applied .. | rolledBack _ => "pascaline.machine"
  | failed .. => "pascaline.cli"

/-- Tokens in diagnostic output; a single one is followed by a comma. -/
def tokensText : List Token → String
  | [t] => "(" ++ t.debugText ++ ",)"
  | ts => "(" ++ ", ".intercalate (ts.map Token.debugText) ++ ")"

/-- What happened. -/
def text : Event → String
  | ignoring word => "Ignoring " ++ Text.quoted word
  | evaluated op operands result =>
      op.symbol ++ " " ++ tokensText operands ++ " -> " ++ result.debugText
  | applied op size => "Applied " ++ op.symbol ++ ", stack size " ++ size.repr
  | rolledBack op => "Rolled back " ++ op.symbol
  | failed fault line => fault.debugText ++ " on line " ++ Text.quoted line

/-- The line of the journal. -/
def line (e : Event) : String := e.source ++ ": DEBUG: " ++ e.text

end Event

namespace Machine

/-- The operator that took its operands off the stack when a push failed. -/
def rolledBack? (m : Machine) (t : Token) : Option Operator :=
  match t with
  | .operator op =>
      match (resolve op).run m with
      | .ok op _ =>
          if m.size < m.capacity ∧ !op.isStructural ∧ op.arity ≤ m.size then some op else none
      | .error _ _ => none
  | _ => none

/-- What a successful operator push did, told from the machine after it. -/
def successEvents (next : Machine) : List Event :=
  match next.lastOperator with
  | none => []
  | some op =>
      let applied := [Event.applied op next.size]
      if op.isStructural then applied
      else
        match next.lastOperands, next.stack with
        | some operands, result :: _ => .evaluated op operands result :: applied
        | _, _ => applied

/-- What a push does. -/
def pushEvents (m : Machine) (t : Token) : List Event :=
  match (push t).run m with
  | .ok _ next => if t.isOperator then next.successEvents else []
  | .error _ _ => (m.rolledBack? t).toList.map .rolledBack

/-- What pushing tokens up to the first failure does. -/
def pushAllEvents (m : Machine) : List Token → List Event
  | [] => []
  | t :: rest =>
      m.pushEvents t ++
        match (push t).run m with
        | .ok _ next => next.pushAllEvents rest
        | .error _ _ => []

/-- What feeding a text does: the whole text is read before anything is pushed. -/
def feedEvents (m : Machine) (text : String) : List Event :=
  (Lexicon.unknownWords text).map .ignoring ++
    match Lexicon.parse text with
    | .ok ts => m.pushAllEvents ts
    | .error _ => []

end Machine

end ReversePolish
