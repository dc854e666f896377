import ReversePolish.Proofs.Machine.Calls
import ReversePolish.Proofs.Machine.Steps

/-! # Well-formed machines

`WellFormed` is what holds of a machine whatever it was called for.  Its parts need each other: the
last operands can come back on the stack, so they have to be values; the last operator can run
again, so it has to be one that runs.  A push keeps them all (`WellFormed.push`), by the ways in
which a stack can change; only `LASTARGS` lets it grow by more than one, and looks at the capacity
for itself.  So they hold after all calls (`after_wellFormed`), and resolving an operator never
finds `LASTOP` remembered. -/

namespace ReversePolish.Machine

variable {m next : Machine} {op : Operator} {t : Token} {P : Token → Prop} {capacity : Int}

/-! ### Tokens of a machine -/

/-- Every token on the stack and among the last operands is one of `P`. -/
structure Holds (P : Token → Prop) (m : Machine) : Prop where
  stack : ∀ t ∈ m.stack, P t
  operands : ∀ ts, m.lastOperands = some ts → ∀ t ∈ ts, P t

theorem Holds.mem_operands (h : m.Holds P) {n : Nat} : ∀ t ∈ m.operands n, P t := by
  intro t ht
  have hmem : t ∈ m.stack := List.mem_of_mem_take (List.mem_reverse.1 ht)
  exact h.stack t hmem

theorem holds_of_empty (hstack : m.stack = [])
    (h : ∀ ts, m.lastOperands = some ts → ∀ t ∈ ts, P t) : m.Holds P := by
  refine ⟨?_, h⟩
  intro t ht
  rw [hstack] at ht
  cases ht

theorem holds_new (P : Token → Prop) (capacity : Int) :
    ({ capacity := capacity } : Machine).Holds P := by
  apply holds_of_empty rfl
  intro ts hts
  cases hts

theorem Holds.cleared (h : m.Holds P) : m.cleared.Holds P := holds_of_empty rfl h.operands

theorem Holds.runs (hevaluate : ∀ t, evaluate op (m.operands op.arity) = .ok t → P t)
    (h : m.Holds P) (hruns : Runs m op next) : next.Holds P := by
  have hstack := h.stack
  cases hruns with
  | dup stack =>
      rw [stack] at hstack
      refine ⟨?_, h.operands⟩
      intro u hu
      apply hstack
      simpa using hu
  | drop stack =>
      rw [stack] at hstack
      refine ⟨?_, h.operands⟩
      intro u hu
      exact hstack u (List.mem_cons_of_mem _ hu)
  | swap stack =>
      rw [stack] at hstack
      refine ⟨?_, h.operands⟩
      intro v hv
      apply hstack
      simp only [List.mem_cons] at hv ⊢
      exact or_left_comm.1 hv
  | clear => exact h.cleared
  | lastargs recalled =>
      refine ⟨?_, h.operands⟩
      intro t ht
      rcases List.mem_append.1 ht with ht | ht
      · exact h.operands _ recalled t (List.mem_reverse.1 ht)
      · exact hstack t ht
  | pure takes found evaluates =>
      constructor
      · intro t ht
        rcases List.mem_cons.1 ht with rfl | ht
        · exact hevaluate _ evaluates
        · exact hstack t (List.mem_of_mem_drop ht)
      · intro ts hts
        cases hts
        exact h.mem_operands

/-- Pushes keep to tokens of `P` if evaluating only gives such. -/
theorem Holds.push (hevaluate : ∀ op operands t, evaluate op operands = .ok t → P t)
    (h : m.Holds P) (ht : t.IsValue → P t) (hnext : m.next t = .ok next) : next.Holds P := by
  rcases next_cases hnext with ⟨-, ⟨hvalue, rfl⟩ | ⟨op, resolved, ran, -, -, hruns, rfl⟩⟩
  · exact ⟨List.forall_mem_cons.2 ⟨ht hvalue, h.stack⟩, h.operands⟩
  · have hran := h.runs (hevaluate _ _) hruns
    exact ⟨hran.stack, hran.operands⟩

/-! ### Well-formed machines -/

/-- What holds of a machine of a capacity, whatever it was called for. -/
structure WellFormed (capacity : Int) (m : Machine) : Prop where
  capacity_eq : m.capacity = capacity
  size_le : (m.size : Int) ≤ max capacity 0
  /-- No operator token and no ignored one is kept. -/
  values : m.Holds Token.IsValue
  operand_count : ∀ ts, m.lastOperands = some ts → ts.length = 1 ∨ ts.length = 2
  /-- The last operator is one that runs. -/
  lastOperator_ne : ∀ op, m.lastOperator = some op → op ≠ .lastop ∧ op ≠ .undo ∧ op ≠ .redo
  /-- Operands were taken by an operator. -/
  lastOperator_isSome : m.lastOperands.isSome → m.lastOperator.isSome

theorem WellFormed.new (capacity : Int) : WellFormed capacity { capacity := capacity } where
  capacity_eq := rfl
  size_le := Int.le_max_right capacity 0
  values := holds_new Token.IsValue capacity
  operand_count := by
    intro ts hts
    cases hts
  lastOperator_ne := by
    intro op hop
    cases hop
  lastOperator_isSome := by
    intro h
    cases h

theorem WellFormed.cleared (h : m.WellFormed capacity) : m.cleared.WellFormed capacity :=
  { h with
    size_le := Int.le_max_right capacity 0
    values := h.values.cleared }

/-- An operator leaves a stack that is too long only where it was full before. -/
theorem Runs.size_le (h : Runs m op next) (hroom : (m.size : Int) < m.capacity) :
    (next.size : Int) ≤ m.capacity := by
  cases h with
  | dup stack | drop stack | swap stack =>
      simp only [size, stack, List.length_cons] at hroom ⊢
      omega
  | clear =>
      simp only [size, cleared, List.length_nil]
      omega
  | lastargs recalled fits =>
      simp only [size, List.length_append, List.length_reverse] at fits ⊢
      omega
  | pure takes found =>
      simp only [size, List.length_cons, List.length_drop] at hroom found ⊢
      omega

theorem Runs.capacity_eq (h : Runs m op next) : next.capacity = m.capacity := by cases h <;> rfl

theorem Runs.operand_count (h : Runs m op next)
    (hm : ∀ ts, m.lastOperands = some ts → ts.length = 1 ∨ ts.length = 2) :
    ∀ ts, next.lastOperands = some ts → ts.length = 1 ∨ ts.length = 2 := by
  cases h with
  | pure takes found =>
      intro ts hts
      cases hts
      have := op.arity_le_two
      simp only [size] at found
      simp only [operands, List.length_reverse, List.length_take]
      omega
  | _ => exact hm

theorem WellFormed.push (h : m.WellFormed capacity) (hnext : m.next t = .ok next) :
    next.WellFormed capacity := by
  have hvalues := h.values.push (fun _ _ _ => evaluate_value) id hnext
  rcases next_cases hnext with ⟨hroom, ⟨-, rfl⟩ | ⟨op, resolved, ran, -, -, hruns, rfl⟩⟩
  · have hcapacity := h.capacity_eq
    refine { h with size_le := ?_, values := hvalues }
    simp only [size, List.length_cons] at hroom ⊢
    omega
  · have hcapacity := h.capacity_eq
    have hsize := hruns.size_le hroom
    exact
      { capacity_eq := hruns.capacity_eq.trans hcapacity
        size_le := by
          simp only [size] at hsize ⊢
          omega
        values := hvalues
        operand_count := hruns.operand_count h.operand_count
        lastOperator_ne := by
          intro op hop
          cases hop
          exact hruns.ne_lastop_undo_redo
        lastOperator_isSome := fun _ => rfl }

theorem isInvariant_wellFormed (capacity : Int) :
    IsInvariant (fun _ => True) (WellFormed capacity) where
  push := fun hm _ hnext => hm.push hnext
  clear := fun hm => hm.cleared

theorem WellFormed.leaves_feed (h : m.WellFormed capacity) (text : String) :
    ((feed text).leaves m).WellFormed capacity :=
  (isInvariant_wellFormed capacity).leaves (Call.feed text).pushesOnly_true h

theorem WellFormed.of_calls (capacity : Int) (calls : List Call) :
    (({ capacity } : Machine).after calls).WellFormed capacity :=
  (isInvariant_wellFormed capacity).after (.new capacity) fun call _ => call.pushesOnly_true

/-- Where the last operator is not `LASTOP`, the assertion holds. -/
theorem resolve_assertion (h : m.WellFormed capacity) (op : Operator) :
    (resolve op).failure? m ≠ some (.trouble .assertion) := by
  rw [Routine.failure?, run_resolve]
  by_cases hop : op = .lastop
  · cases hlast : m.lastOperator with
    | none => simp [resolved, hop, hlast]
    | some last =>
        have hne := (h.lastOperator_ne last hlast).1
        simp [resolved, hop, hlast, hne]
  · simp [resolved, hop]

/-- **Whatever a machine was called for, it is well formed**, and resolving an operator finds an
operator that may be run. -/
theorem after_wellFormed (capacity : Int) (calls : List Call) :
    let m := ({ capacity } : Machine).after calls
    m.WellFormed capacity ∧ ∀ op, (resolve op).failure? m ≠ some (.trouble .assertion) :=
  ⟨WellFormed.of_calls capacity calls, resolve_assertion (WellFormed.of_calls capacity calls)⟩

/-- `LASTARGS` fills the stack up, and then nothing takes a token off it but clearing. -/
example :
    let one : Token := .integer ⟨1, by decide, by decide⟩
    let two : Token := .integer ⟨2, by decide, by decide⟩
    let m := ({ capacity := 3 } : Machine).after
      [.push one, .push one, .push (.operator .add), .push (.operator .lastargs),
        .push (.operator .drop)]
    m.items = [two, one, one] ∧ m.lastOperator = some .lastargs := by decide

end ReversePolish.Machine
