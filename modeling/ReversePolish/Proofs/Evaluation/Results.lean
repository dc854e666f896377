import ReversePolish.Evaluation
import ReversePolish.Proofs.Outcomes

/-! # Results

What is known of operands and result when an operator has evaluated: there were as many operands as
it takes, of kinds that it accepts, and the result is a truth value or the token of a number that
the rule of the operator computes from the operands (`evaluate_cases`).  So it is a value
(`evaluate_value`). -/

namespace ReversePolish

namespace Token

/-- A number or a truth value. -/
def IsValue : Token → Prop
  | integer _ | float _ | boolean _ => True
  | _ => False

instance (t : Token) : Decidable t.IsValue := by
  unfold IsValue
  split <;> infer_instance

theorem isValue_of_isNumeric {t : Token} (h : t.isNumeric) : t.IsValue := by
  cases t with
  | integer cell => trivial
  | float x => trivial
  | _ => cases h

theorem ofInt_isNumeric (i : Int) : Returns (·.isNumeric) (ofInt i) := by
  unfold ofInt
  split
  · exact .ok rfl
  · cases (Number.integer i).asDouble with
    | ok x => exact .ok rfl
    | error failure => exact .error _

theorem ofDouble_isNumeric (x : Binary64) : Returns (·.isNumeric) (ofDouble x) := by
  unfold ofDouble ofIntegral
  split
  · split
    · apply Returns.bind
      intro i _
      exact ofInt_isNumeric i
    · exact .error _
  · exact .ok rfl

/-- The token of a number is an integer or a double. -/
theorem ofNumber_isNumeric (n : Number) : Returns (·.isNumeric) (ofNumber n) := by
  cases n with
  | integer i => exact ofInt_isNumeric i
  | double x => exact ofDouble_isNumeric x

end Token

/-! ### Operands -/

theorem unpackOne_eq_ok {operands : List Token} {a : Number} (h : unpackOne operands = .ok a) :
    ∃ s, operands = [s] ∧ s.operand = .ok a := by
  unfold unpackOne at h
  split at h
  · exact ⟨_, rfl, h⟩
  · cases h

theorem unpackTwo_eq_ok {operands : List Token} {a b : Number}
    (h : unpackTwo operands = .ok (a, b)) :
    ∃ s u, operands = [s, u] ∧ s.operand = .ok a ∧ u.operand = .ok b := by
  unfold unpackTwo at h
  split at h
  next s u =>
    obtain ⟨a', hs, h⟩ := exists_of_bind_eq_ok h
    obtain ⟨b', hu, h⟩ := exists_of_bind_eq_ok h
    cases h
    exact ⟨s, u, rfl, hs, hu⟩
  · cases h

/-! ### Evaluation -/

/-- The rule of the operator computes the number from the operands. -/
def Computes (op : Operator) (operands : List Token) (n : Number) : Prop :=
  match op.rule with
  | .arithmetic f => ∃ a b, unpackTwo operands = .ok (a, b) ∧ f a b = .ok n
  | .function f => ∃ a, unpackOne operands = .ok a ∧ f a = .ok n
  | _ => False

/-- Computes a number. -/
def Rule.IsNumeric : Rule → Prop
  | arithmetic _ | function _ => True
  | _ => False

theorem dispatch_cases {op : Operator} {operands : List Token} {t : Token}
    (h : dispatch op operands = .ok t) :
    (¬ op.rule.IsNumeric ∧ ∃ b, t = .boolean b) ∨
      ∃ n, Computes op operands n ∧ Token.ofNumber n = .ok t := by
  unfold dispatch at h
  unfold Computes
  cases hrule : op.rule with
  | arithmetic f =>
      rw [hrule] at h
      obtain ⟨⟨a, b⟩, hoperands, h⟩ := exists_of_bind_eq_ok h
      obtain ⟨n, hn, ht⟩ := exists_of_bind_eq_ok h
      exact .inr ⟨n, ⟨a, b, hoperands, hn⟩, ht⟩
  | function f =>
      rw [hrule] at h
      obtain ⟨a, hoperand, h⟩ := exists_of_bind_eq_ok h
      obtain ⟨n, hn, ht⟩ := exists_of_bind_eq_ok h
      exact .inr ⟨n, ⟨a, hoperand, hn⟩, ht⟩
  | comparison f =>
      rw [hrule] at h
      obtain ⟨⟨a, b⟩, -, h⟩ := exists_of_bind_eq_ok h
      exact .inl ⟨id, f a b, (Except.ok.inj h).symm⟩
  | connective f =>
      rw [hrule] at h
      obtain ⟨truths, -, h⟩ := exists_of_bind_eq_ok h
      split at h
      next a b => exact .inl ⟨id, f a b, (Except.ok.inj h).symm⟩
      · cases h
  | negation =>
      rw [hrule] at h
      obtain ⟨truths, -, h⟩ := exists_of_bind_eq_ok h
      split at h
      next a => exact .inl ⟨id, !a, (Except.ok.inj h).symm⟩
      · cases h
  | structural =>
      rw [hrule] at h
      cases h

/-- **What is known when an operator has evaluated.** -/
theorem evaluate_cases {op : Operator} {operands : List Token} {t : Token}
    (h : evaluate op operands = .ok t) :
    operands.length = op.arity ∧ (∀ s ∈ operands, op.accepts s) ∧
      ((¬ op.rule.IsNumeric ∧ ∃ b, t = .boolean b) ∨
        ∃ n, Computes op operands n ∧ Token.ofNumber n = .ok t) := by
  unfold evaluate at h
  split at h
  · cases h
  next hlength =>
    split at h
    next hkinds =>
      refine ⟨Decidable.not_not.1 hlength, List.all_eq_true.1 hkinds, ?_⟩
      cases hdispatch : dispatch op operands with
      | ok u =>
          rw [hdispatch] at h
          cases h
          exact dispatch_cases hdispatch
      | error failure =>
          rw [hdispatch] at h
          cases h
    · cases h

/-- **The result of an operator is a value.** -/
theorem evaluate_value {op : Operator} {operands : List Token} {t : Token}
    (h : evaluate op operands = .ok t) : t.IsValue := by
  obtain ⟨-, -, ⟨-, b, rfl⟩ | ⟨n, -, ht⟩⟩ := evaluate_cases h
  · trivial
  · exact Token.isValue_of_isNumeric (Token.ofNumber_isNumeric n t ht)

end ReversePolish
