import ReversePolish.Proofs.Evaluation.Results
import ReversePolish.Proofs.Machine.Transition

/-! # Steps

What a push that succeeds has done.  `Runs` says it of an operator, with one constructor for each
way the stack can change (`runs_of_ran`), and `next_cases` of a token.  Proofs about all pushes
split along these two, and never unfold `next`.  Where there is room, what runs also succeeds
(`next_of_value`, `next_of_runs`), so these are all that a push does. -/

namespace ReversePolish.Machine

variable {m next : Machine} {op resolved : Operator} {t : Token}

/-- Running an operator takes the machine to another one. -/
inductive Runs (m : Machine) : Operator → Machine → Prop
  | dup {t : Token} {rest : List Token} (stack : m.stack = t :: rest) :
      Runs m .dup { m with stack := t :: t :: rest }
  | drop {t : Token} {rest : List Token} (stack : m.stack = t :: rest) :
      Runs m .drop { m with stack := rest }
  | swap {t u : Token} {rest : List Token} (stack : m.stack = t :: u :: rest) :
      Runs m .swap { m with stack := u :: t :: rest }
  | clear : Runs m .clear m.cleared
  | lastargs {operands : List Token} (recalled : m.lastOperands = some operands)
      (fits : (m.size + operands.length : Nat) ≤ m.capacity) :
      Runs m .lastargs { m with stack := operands.reverse ++ m.stack }
  | pure {op : Operator} {result : Token} (takes : op.arity ≠ 0) (found : op.arity ≤ m.size)
      (evaluates : evaluate op (m.operands op.arity) = .ok result) :
      Runs m op { m with
        stack := result :: m.stack.drop op.arity
        lastOperands := some (m.operands op.arity) }

theorem runs_of_operated (hop : op.arity ≠ 0) (h : m.operated op = .ok next) :
    Runs m op next := by
  unfold operated at h
  split at h
  · cases h
  next hsize =>
    cases hevaluate : evaluate op (m.operands op.arity) with
    | error failure => rw [hevaluate] at h; cases h
    | ok result =>
        rw [hevaluate] at h
        cases h
        exact .pure hop (Nat.le_of_not_lt hsize) hevaluate

theorem runs_of_ran (h : m.ran op = .ok next) : Runs m op next := by
  cases op with
  | dup =>
      simp only [ran, duplicated] at h
      split at h
      · cases h
      next hstack => cases h; exact .dup hstack
  | drop =>
      simp only [ran, dropped] at h
      split at h
      · cases h
      next hstack => cases h; exact .drop hstack
  | swap =>
      simp only [ran, swapped] at h
      split at h
      next hstack => cases h; exact .swap hstack
      · cases h
  | clear => cases h; exact .clear
  | lastargs =>
      simp only [ran, recalled] at h
      split at h
      · cases h
      next hrecalled =>
        split at h
        · cases h
        next hfits => cases h; exact .lastargs hrecalled (Int.not_lt.1 hfits)
  | lastop | undo | redo => cases h
  | _ => exact runs_of_operated (by decide) h

/-- An operator that runs is neither one to be resolved nor one without a meaning. -/
theorem Runs.ne_lastop_undo_redo (h : Runs m op next) :
    op ≠ .lastop ∧ op ≠ .undo ∧ op ≠ .redo := by
  cases h with
  | pure hop => refine ⟨?_, ?_, ?_⟩ <;> rintro rfl <;> exact hop rfl
  | _ => decide

/-- An operator is resolved to itself, or in place of `LASTOP` to the last one. -/
theorem resolved_cases (h : m.resolved op = .ok resolved) :
    op ≠ .lastop ∧ resolved = op ∨ op = .lastop ∧ m.lastOperator = some resolved := by
  unfold Machine.resolved at h
  split at h
  next hop =>
    refine .inr ⟨hop, ?_⟩
    split at h
    · cases h
    next last hlast =>
      split at h
      · cases h
      · cases h
        exact hlast
  next hop =>
    cases h
    exact .inl ⟨hop, rfl⟩

/-- **What a push that succeeds has done**: it put a value on the stack, or ran an operator and
remembered it. -/
theorem next_cases (h : m.next t = .ok next) :
    (m.size : Int) < m.capacity ∧
      (t.IsValue ∧ next = { m with stack := t :: m.stack } ∨
        ∃ op resolved ran, t = .operator op ∧ m.resolved op = .ok resolved ∧
          Runs m resolved ran ∧ next = { ran with lastOperator := some resolved }) := by
  unfold Machine.next at h
  split at h
  · cases h
  next hsize =>
    refine ⟨Int.not_le.1 hsize, ?_⟩
    cases t with
    | integer cell => cases h; exact .inl ⟨trivial, rfl⟩
    | float x => cases h; exact .inl ⟨trivial, rfl⟩
    | boolean b => cases h; exact .inl ⟨trivial, rfl⟩
    | operator op =>
        obtain ⟨resolved, hresolved, happlied⟩ := exists_of_bind_eq_ok h
        simp only [applied] at happlied
        cases hran : m.ran resolved with
        | error failure => rw [hran] at happlied; cases happlied
        | ok ran =>
            rw [hran] at happlied
            cases happlied
            exact .inr ⟨op, resolved, ran, rfl, hresolved, runs_of_ran hran, rfl⟩
    | unresolved spelling => cases h
    | ignored => cases h

/-! ### What a token runs -/

/-- Pushing the token is running the operator `op`: it names `op`, or names `LASTOP` and `op` is the
last operator. -/
def Invokes (m : Machine) (t : Token) (op : Operator) : Prop :=
  ∃ named, t = .operator named ∧ m.resolved named = .ok op

theorem invokes_operator_iff {named : Operator} :
    m.Invokes (.operator named) op ↔ m.resolved named = .ok op := by
  constructor
  · rintro ⟨_, ⟨⟩, h⟩
    exact h
  · intro h
    exact ⟨named, rfl, h⟩

instance (m : Machine) (t : Token) (op : Operator) : Decidable (m.Invokes t op) :=
  match t with
  | .operator named =>
      match h : m.resolved named with
      | .ok resolved => decidable_of_iff (resolved = op) (by simp [invokes_operator_iff, h])
      | .error _ => isFalse (by simp [invokes_operator_iff, h])
  | .integer _ | .float _ | .boolean _ | .unresolved _ | .ignored =>
      isFalse fun ⟨_, ht, _⟩ => Token.noConfusion ht

theorem invokes_self (hop : op ≠ .lastop) : m.Invokes (.operator op) op :=
  ⟨op, rfl, if_neg hop⟩

theorem invokes_lastop (h : m.lastOperator = some op) (hop : op ≠ .lastop) :
    m.Invokes (.operator .lastop) op :=
  ⟨.lastop, rfl, by simp [resolved, h, hop]⟩

/-- **A full stack refuses every token.** -/
theorem next_of_full (h : m.capacity ≤ m.size) (t : Token) :
    m.next t = .error (.fault (.stackFull m.capacity)) := if_pos h

/-- **A push depends on the operator that it runs**, not on the name it is called by. -/
theorem next_of_invokes (h : m.Invokes t op) :
    m.next t =
      if m.capacity ≤ m.size then .error (.fault (.stackFull m.capacity)) else m.applied op := by
  obtain ⟨named, rfl, hresolved⟩ := h
  simp only [Machine.next, hresolved, Except.bind]

/-- A push that succeeds has run the operator and remembered it. -/
theorem runs_of_invokes (h : m.Invokes t op) (hnext : m.next t = .ok next) :
    ∃ ran, Runs m op ran ∧ next = { ran with lastOperator := some op } := by
  obtain ⟨named, rfl, hresolved⟩ := h
  rcases next_cases hnext with ⟨-, ⟨hvalue, -⟩ | ⟨named', resolved, ran, ht, hresolved', h⟩⟩
  · cases hvalue
  · cases ht
    obtain rfl := Except.ok.inj (hresolved.symm.trans hresolved')
    exact ⟨ran, h⟩

/-! ### What runs succeeds -/

theorem ran_of_arity_ne_zero (hop : op.arity ≠ 0) (m : Machine) : m.ran op = m.operated op := by
  cases op with
  | dup | drop | swap | lastop | lastargs | undo | redo | clear => exact absurd rfl hop
  | _ => rfl

theorem Runs.ran_eq (h : Runs m op next) : m.ran op = .ok next := by
  cases h with
  | dup stack | drop stack | swap stack => simp only [ran, duplicated, dropped, swapped, stack]
  | clear => rfl
  | lastargs found fits => simp only [ran, recalled, found, if_neg (Int.not_lt.2 fits)]
  | pure takes found evaluates =>
      simp only [ran_of_arity_ne_zero takes, operated, if_neg (Nat.not_lt.2 found), evaluates]

theorem next_of_value (ht : t.IsValue) (hroom : (m.size : Int) < m.capacity) :
    m.next t = .ok { m with stack := t :: m.stack } := by
  unfold Machine.next
  rw [if_neg (Int.not_le.2 hroom)]
  cases t with
  | operator op => cases ht
  | unresolved spelling => cases ht
  | ignored => cases ht
  | _ => rfl

theorem next_of_runs (ht : m.Invokes t op) (hroom : (m.size : Int) < m.capacity)
    (h : Runs m op next) : m.next t = .ok { next with lastOperator := some op } := by
  rw [next_of_invokes ht, if_neg (Int.not_le.2 hroom), applied, h.ran_eq]
  rfl

end ReversePolish.Machine
