import ReversePolish.Machine

/-! # Transitions

A push is one transition: it succeeds with another machine, or fails and leaves the machine as it
was (`push_eq_ofTransition`).  `next` says which machine, as a function of the machine and the
token.  The routines between are taken in the order in which they are built up, each with the
equation of its run; the one that matters is `run_evaluateOrRestore` between `run_popStack` and
`run_operate`: what was taken off lowest first is put back lowest first. -/

namespace ReversePolish

/-- The routine that makes a transition of the machine, or fails and changes nothing. -/
def Routine.ofTransition (f : Machine → Except Failure Machine) : Routine Unit := fun m =>
  match f m with
  | .ok next => .ok () next
  | .error failure => .error failure m

theorem Routine.run_ofTransition (f : Machine → Except Failure Machine) (m : Machine) :
    (Routine.ofTransition f).run m =
      match f m with
      | .ok next => .ok () next
      | .error failure => .error failure m := rfl

namespace Machine

/-! ### The stack -/

theorem run_throw {α : Type} (failure : Failure) (m : Machine) :
    (throw failure : Routine α).run m = .error failure m := rfl

theorem run_append (t : Token) (m : Machine) :
    (append t).run m = .ok () { m with stack := t :: m.stack } := rfl

theorem run_extend (ts : List Token) (m : Machine) :
    (extend ts).run m = .ok () { m with stack := ts.reverse ++ m.stack } := by
  induction ts generalizing m with
  | nil => rfl
  | cons t ts ih =>
      simp only [extend, EStateM.run_bind, run_append, ih]
      simp

theorem run_pop_cons {m : Machine} {t : Token} {rest : List Token} (h : m.stack = t :: rest) :
    pop.run m = .ok t { m with stack := rest } := by
  simp only [pop, EStateM.run_bind, EStateM.run_get, h, EStateM.run_modify, EStateM.run_pure]

theorem run_popEach {n : Nat} {m : Machine} (h : n ≤ m.size) :
    (popEach n).run m = .ok (m.stack.take n) { m with stack := m.stack.drop n } := by
  induction n generalizing m with
  | zero => rfl
  | succ n ih =>
      cases hs : m.stack with
      | nil => simp [size, hs] at h
      | cons t rest =>
          have hrest : n ≤ size { m with stack := rest } := by simpa [size, hs] using h
          simp only [popEach, EStateM.run_bind, run_pop_cons hs, ih hrest, EStateM.run_pure]
          simp

/-- The operands of an operator that takes `n`, the lowest first. -/
def operands (m : Machine) (n : Nat) : List Token := (m.stack.take n).reverse

theorem run_popStack {n : Nat} {m : Machine} (h : n ≤ m.size) :
    (popStack n).run m = .ok (m.operands n) { m with stack := m.stack.drop n } := by
  simp only [popStack, EStateM.run_bind, run_popEach h, EStateM.run_pure]
  rfl

/-! ### Operators on the stack itself -/

/-- The machine after `DUP`. -/
def duplicated (m : Machine) : Except Failure Machine :=
  match m.stack with
  | [] => .error (.fault .emptyStack)
  | t :: rest => .ok { m with stack := t :: t :: rest }

theorem dup_eq_ofTransition : dup = .ofTransition duplicated := by
  funext m
  obtain ⟨capacity, stack, lastOperator, lastOperands⟩ := m
  cases stack <;> rfl

/-- The machine after `DROP`. -/
def dropped (m : Machine) : Except Failure Machine :=
  match m.stack with
  | [] => .error (.fault .emptyStack)
  | _ :: rest => .ok { m with stack := rest }

theorem drop_eq_ofTransition : drop = .ofTransition dropped := by
  funext m
  obtain ⟨capacity, stack, lastOperator, lastOperands⟩ := m
  cases stack <;> rfl

/-- The machine after `SWAP`. -/
def swapped (m : Machine) : Except Failure Machine :=
  match m.stack with
  | t :: u :: rest => .ok { m with stack := u :: t :: rest }
  | stack => .error (.fault (.arity .swap 2 stack.length))

theorem swap_eq_ofTransition : swap = .ofTransition swapped := by
  funext m
  obtain ⟨capacity, stack, lastOperator, lastOperands⟩ := m
  cases stack with
  | nil => rfl
  | cons t rest => cases rest <;> rfl

/-- The machine after `CLEAR`. -/
def cleared (m : Machine) : Machine := { m with stack := [] }

theorem clear_eq_ofTransition : clear = .ofTransition fun m => .ok m.cleared := rfl

/-- The machine after `LASTARGS`. -/
def recalled (m : Machine) : Except Failure Machine :=
  match m.lastOperands with
  | none => .error (.fault .noLastOperands)
  | some operands =>
      if m.capacity < (m.size + operands.length : Nat) then
        .error (.fault (.stackFull m.capacity))
      else .ok { m with stack := operands.reverse ++ m.stack }

theorem recallOperands_eq_ofTransition : recallOperands = .ofTransition recalled := by
  funext m
  obtain ⟨capacity, stack, lastOperator, lastOperands⟩ := m
  change recallOperands.run _ = (Routine.ofTransition recalled).run _
  simp only [recallOperands, EStateM.run_bind, EStateM.run_get, Routine.run_ofTransition, recalled]
  cases lastOperands with
  | none => rfl
  | some operands =>
      dsimp only
      split
      · rfl
      · exact run_extend operands _

/-! ### Running an operator -/

/-- The operator that runs in place of one. -/
def resolved (m : Machine) (op : Operator) : Except Failure Operator :=
  if op = .lastop then
    match m.lastOperator with
    | none => .error (.fault .noLastOperator)
    | some last => if last = .lastop then .error (.trouble .assertion) else .ok last
  else .ok op

theorem run_resolve (op : Operator) (m : Machine) :
    (resolve op).run m =
      match m.resolved op with
      | .ok resolved => .ok resolved m
      | .error failure => .error failure m := by
  unfold resolve resolved
  split
  · simp only [EStateM.run_bind, EStateM.run_get]
    cases m.lastOperator with
    | none => rfl
    | some last => dsimp only; split <;> rfl
  · rfl

/-- A failure puts the operands on the stack again. -/
theorem run_evaluateOrRestore (op : Operator) (operands : List Token) (m : Machine) :
    (evaluateOrRestore op operands).run m =
      match evaluate op operands with
      | .ok result => .ok result m
      | .error failure => .error failure { m with stack := operands.reverse ++ m.stack } := by
  unfold evaluateOrRestore
  cases evaluate op operands with
  | ok result => rfl
  | error failure =>
      change (extend operands >>= fun _ => throw failure : Routine Token).run m = _
      simp only [EStateM.run_bind, run_extend, run_throw]

/-- The machine after a pure operator. -/
def operated (m : Machine) (op : Operator) : Except Failure Machine :=
  if m.size < op.arity then .error (.fault (.arity op op.arity m.size))
  else
    match evaluate op (m.operands op.arity) with
    | .ok result =>
        .ok { m with
          stack := result :: m.stack.drop op.arity
          lastOperands := some (m.operands op.arity) }
    | .error failure => .error failure

theorem operate_eq_ofTransition (op : Operator) :
    operate op = .ofTransition (·.operated op) := by
  funext m
  change (operate op).run m = (Routine.ofTransition (·.operated op)).run m
  simp only [operate, EStateM.run_bind, EStateM.run_get, Routine.run_ofTransition, operated]
  split
  · rfl
  next h =>
    simp only [EStateM.run_bind, run_popStack (Nat.le_of_not_lt h), run_evaluateOrRestore]
    cases evaluate op (m.operands op.arity) with
    | ok result => rfl
    | error failure =>
        have hstack : (m.operands op.arity).reverse ++ m.stack.drop op.arity = m.stack := by
          rw [operands, List.reverse_reverse, List.take_append_drop]
        simp only [hstack]

/-- The machine after an operator that was resolved. -/
def ran (m : Machine) (op : Operator) : Except Failure Machine :=
  match op with
  | .dup => m.duplicated
  | .drop => m.dropped
  | .swap => m.swapped
  | .clear => .ok m.cleared
  | .lastargs => m.recalled
  | op => if op.isStructural then .error (.fault (.notSupported op)) else m.operated op

theorem run_eq_ofTransition (op : Operator) : run op = .ofTransition (·.ran op) := by
  cases op with
  | dup => exact dup_eq_ofTransition
  | drop => exact drop_eq_ofTransition
  | swap => exact swap_eq_ofTransition
  | clear => exact clear_eq_ofTransition
  | lastargs => exact recallOperands_eq_ofTransition
  | lastop | undo | redo => rfl
  | _ => exact operate_eq_ofTransition _

/-- The machine after an operator that was resolved and is remembered. -/
def applied (m : Machine) (op : Operator) : Except Failure Machine :=
  (m.ran op).map fun next => { next with lastOperator := some op }

theorem apply_eq_ofTransition (op : Operator) : apply op = .ofTransition (·.applied op) := by
  funext m
  change (apply op).run m = (Routine.ofTransition (·.applied op)).run m
  simp only [apply, EStateM.run_bind, run_eq_ofTransition, Routine.run_ofTransition, applied]
  cases m.ran op <;> rfl

/-! ### Pushing -/

/-- The machine after a push. -/
def next (m : Machine) (t : Token) : Except Failure Machine :=
  if m.capacity ≤ m.size then .error (.fault (.stackFull m.capacity))
  else
    match t with
    | .operator op => (m.resolved op).bind m.applied
    | .unresolved spelling => .error (.fault (.notOperator spelling))
    | .ignored => .error (.fault .ignoredToken)
    | t => .ok { m with stack := t :: m.stack }

/-- **A push is a transition**: it succeeds with another machine, or changes nothing. -/
theorem push_eq_ofTransition (t : Token) : push t = .ofTransition (·.next t) := by
  funext m
  change (push t).run m = (Routine.ofTransition (·.next t)).run m
  simp only [push, EStateM.run_bind, EStateM.run_get, Routine.run_ofTransition, next]
  split
  · rfl
  cases t with
  | operator op =>
      simp only [EStateM.run_bind, run_resolve]
      cases m.resolved op with
      | ok op => exact congrFun (apply_eq_ofTransition op) m
      | error failure => rfl
  | _ => rfl

/-- **A push that fails changes nothing**, at whatever depth it fails. -/
theorem push_error_unchanged {m left : Machine} {t : Token} {failure : Failure}
    (h : (push t).run m = .error failure left) : left = m := by
  rw [push_eq_ofTransition, Routine.run_ofTransition] at h
  cases hnext : m.next t with
  | ok next => rw [hnext] at h; cases h
  | error failure => rw [hnext] at h; cases h; rfl

/-- The operands of a division that `LASTOP` repeats are off the stack when it turns out to be one
by zero. -/
theorem push_error_unchanged_lastop :
    let m : Machine :=
      { stack := [.integer ⟨0, by decide, by decide⟩, .float .nan, .boolean true]
        lastOperator := some .eucDiv }
    ∃ left, (push (.operator .lastop)).run m = .error (.fault .divisionByZero) left ∧ left = m := by
  intro m
  have h : (push (.operator .lastop)).run m = .error (.fault .divisionByZero) m := rfl
  exact ⟨m, h, push_error_unchanged h⟩

end Machine

end ReversePolish
