import ReversePolish.Evaluation
import ReversePolish.Lexicon

/-! # The machine

A machine is a stack of bounded capacity with two memory registers: the operator that was applied
last, and the operands that were taken off the stack last.  A `Routine` works on the machine as it
goes along, and what it changed before it failed stays changed.  So `operate`, which takes the
operands off the stack before it evaluates, has to put them back if that fails.

A full stack refuses every token, also those that would make it smaller.  `LASTOP` is resolved to
the operator it repeats before anything runs, and is never remembered itself. -/

namespace ReversePolish

/-- The capacity of a machine that is not given one. -/
def defaultCapacity : Int := 4096

structure Machine where
  capacity : Int := defaultCapacity
  /-- The tokens, the topmost first. -/
  stack : List Token := []
  lastOperator : Option Operator := none
  /-- The operands taken off last, the lowest first. -/
  lastOperands : Option (List Token) := none
deriving DecidableEq

/-- Work on a machine. -/
abbrev Routine := EStateM Failure Machine

/-- The machine that a routine leaves behind, whether it fails or not. -/
def Routine.leaves {α : Type} (r : Routine α) (m : Machine) : Machine :=
  match r.run m with
  | .ok _ next => next
  | .error _ next => next

/-- What a routine fails with. -/
def Routine.failure? {α : Type} (r : Routine α) (m : Machine) : Option Failure :=
  match r.run m with
  | .ok _ _ => none
  | .error failure _ => some failure

namespace Machine

/-- The number of tokens on the stack. -/
def size (m : Machine) : Nat := m.stack.length

/-- The topmost token. -/
def result? (m : Machine) : Option Token := m.stack.head?

/-- The tokens from the lowest to the topmost. -/
def items (m : Machine) : List Token := m.stack.reverse

/-! ### The stack -/

/-- Puts a token on the stack. -/
def append (t : Token) : Routine Unit := modify fun m => { m with stack := t :: m.stack }

/-- Puts tokens on the stack one after the other. -/
def extend : List Token → Routine Unit
  | [] => pure ()
  | t :: rest => do
      append t
      extend rest

/-- Takes a token off the stack. -/
def pop : Routine Token := do
  match (← get).stack with
  | [] => throw (.trouble .missing)
  | t :: rest =>
      modify fun m => { m with stack := rest }
      return t

/-- Takes tokens off the stack, the topmost first. -/
def popEach : Nat → Routine (List Token)
  | 0 => return []
  | n + 1 => do
      let t ← pop
      let rest ← popEach n
      return t :: rest

/-- Takes tokens off the stack and lists them as they lay, the lowest first. -/
def popStack (n : Nat) : Routine (List Token) := do
  let popped ← popEach n
  return popped.reverse

/-- The token at a depth; the topmost is at depth zero. -/
def peek (depth : Nat) : Routine Token := do
  match (← get).stack[depth]? with
  | some t => return t
  | none => throw (.trouble .missing)

/-- Puts a token in place of the one at a depth. -/
def place (depth : Nat) (t : Token) : Routine Unit := do
  if depth < (← get).size then modify fun m => { m with stack := m.stack.set depth t }
  else throw (.trouble .missing)

/-! ### Operators on the stack itself -/

/-- Puts the topmost token on the stack once more. -/
def dup : Routine Unit := do
  if (← get).stack.isEmpty then throw (.fault .emptyStack)
  else append (← peek 0)

/-- Drops the topmost token. -/
def drop : Routine Unit := do
  if (← get).stack.isEmpty then throw (.fault .emptyStack)
  else
    let _ ← pop
    return

/-- Exchanges the two topmost tokens. -/
def swap : Routine Unit := do
  let found := (← get).size
  if found < 2 then throw (.fault (.arity .swap 2 found))
  else
    let below ← peek 1
    let above ← peek 0
    place 0 below
    place 1 above

/-- Empties the stack; the registers stay. -/
def clear : Routine Unit := modify fun m => { m with stack := [] }

/-- Puts the last operands back on the stack. -/
def recallOperands : Routine Unit := do
  let m ← get
  match m.lastOperands with
  | none => throw (.fault .noLastOperands)
  | some operands =>
      if m.capacity < (m.size + operands.length : Nat) then throw (.fault (.stackFull m.capacity))
      else extend operands

/-- The routines of the operators that work on the stack itself. -/
def structural? : Operator → Option (Routine Unit)
  | .dup => some dup
  | .drop => some drop
  | .swap => some swap
  | .clear => some clear
  | .lastargs => some recallOperands
  | _ => none

/-! ### Running an operator -/

/-- The operator to run: the last one in place of `LASTOP`. -/
def resolve (op : Operator) : Routine Operator := do
  if op = .lastop then
    match (← get).lastOperator with
    | none => throw (.fault .noLastOperator)
    | some last => if last = .lastop then throw (.trouble .assertion) else return last
  else return op

/-- Evaluates an operator, and puts the operands back on the stack if that fails. -/
def evaluateOrRestore (op : Operator) (operands : List Token) : Routine Token :=
  tryCatch (MonadExcept.ofExcept (evaluate op operands)) fun failure => do
    extend operands
    throw failure

/-- Takes the operands off the stack and puts the result in their place. -/
def operate (op : Operator) : Routine Unit := do
  let found := (← get).size
  if found < op.arity then throw (.fault (.arity op op.arity found))
  else
    let operands ← popStack op.arity
    let result ← evaluateOrRestore op operands
    append result
    modify fun m => { m with lastOperands := some operands }

/-- Runs an operator that was resolved. -/
def run (op : Operator) : Routine Unit :=
  match structural? op with
  | some routine => routine
  | none => if op.isStructural then throw (.fault (.notSupported op)) else operate op

/-- Runs an operator and remembers it. -/
def apply (op : Operator) : Routine Unit := do
  run op
  modify fun m => { m with lastOperator := some op }

/-! ### Pushing -/

/-- Puts a token on the stack, or runs it if it is an operator. -/
def push (t : Token) : Routine Unit := do
  let m ← get
  if m.capacity ≤ m.size then throw (.fault (.stackFull m.capacity))
  else
    match t with
    | .operator op => apply (← resolve op)
    | .unresolved spelling => throw (.fault (.notOperator spelling))
    | .ignored => throw (.fault .ignoredToken)
    | t => append t

/-- Pushes tokens one after the other up to the first failure. -/
def pushAll : List Token → Routine Unit
  | [] => pure ()
  | t :: rest => do
      push t
      pushAll rest

/-- Pushes the tokens of a text up to the first failure. -/
def feed (text : String) : Routine Unit := do
  let ts ← MonadExcept.ofExcept (Lexicon.parse text)
  pushAll ts

/-! ### Text -/

/-- The stack as the user sees it. -/
def display (m : Machine) : String :=
  "[" ++ ", ".intercalate (m.items.map Token.display) ++ "]"

/-- The machine in diagnostic output. -/
def debugText (m : Machine) : String := "<Machine " ++ m.display ++ ">"

end Machine

end ReversePolish
