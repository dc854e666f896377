import ReversePolish.Proofs.Evaluation.Reporting
import ReversePolish.Proofs.Evaluation.Results

/-! # Evaluating without the numbers

The shape of a token is what it is, less the value of a number or truth value; integers and doubles
have one shape.  Shapes settle all that evaluating checks, and what kind of result it gives
(`evaluateShape`).  Evaluating follows that (`evaluate_follows`), except that operands which pass
the checks can still have values for which there is no result. -/

namespace ReversePolish

open Fault (Category)

/-! ### Shapes -/

/-- What a token is, its value aside. -/
inductive Shape where
  | number
  | truth
  | operator (op : Operator)
  | unresolved
  | ignored
deriving DecidableEq, Repr

namespace Token

def shape : Token → Shape
  | integer _ | float _ => .number
  | boolean _ => .truth
  | operator op => .operator op
  | unresolved _ => .unresolved
  | ignored => .ignored

theorem shape_of_isNumeric {t : Token} (h : t.isNumeric) : t.shape = .number := by
  cases t with
  | integer cell => rfl
  | float x => rfl
  | _ => cases h

end Token

namespace Operator

/-- Takes tokens of a shape as operands. -/
def takes (op : Operator) (s : Shape) : Bool := s == .number || op.takesTruth && s == .truth

theorem accepts_eq_takes (op : Operator) (t : Token) : op.accepts t = op.takes t.shape := by
  cases t <;> rfl

/-- The shape of the results. -/
def resultShape (op : Operator) : Shape :=
  match op.rule with
  | .arithmetic _ | .function _ => .number
  | _ => .truth

end Operator

/-! ### Following -/

/-- A computation does what is foreseen of it without the numbers, except that the numbers may have
no result where one is foreseen. -/
inductive Follows {α β : Type} (view : α → β) : Except Failure α → Except Category β → Prop
  | ok (a : α) : Follows view (.ok a) (.ok (view a))
  | error (f : Fault) : Follows view (.error (.fault f)) (.error f.category)
  | numerical {f : Fault} (h : f.category.IsNumerical) (b : β) :
      Follows view (.error (.fault f)) (.ok b)

theorem Follows.ok_of_eq {α β : Type} {view : α → β} {a : α} {b : β} (h : view a = b) :
    Follows view (.ok a) (.ok b) := h ▸ .ok a

theorem Follows.of_error {α β : Type} {view : α → β} {r : Except Failure α} {c : Category}
    (h : Follows view r (.error c)) : ∃ f, r = .error (.fault f) ∧ f.category = c := by
  cases h with
  | error f => exact ⟨f, rfl, rfl⟩

theorem Follows.of_ok {α β : Type} {view : α → β} {r : Except Failure α} {b : β}
    (h : Follows view r (.ok b)) :
    (∃ a, r = .ok a ∧ view a = b) ∨ ∃ f, r = .error (.fault f) ∧ f.category.IsNumerical := by
  cases h with
  | ok a => exact .inl ⟨a, rfl, rfl⟩
  | @numerical f h => exact .inr ⟨f, rfl, h⟩

theorem Follows.map {α β γ δ : Type} {view : α → β} {view' : γ → δ} {g : α → γ} {g' : β → δ}
    {r : Except Failure α} {foreseen : Except Category β} (h : Follows view r foreseen)
    (hg : ∀ a, view' (g a) = g' (view a)) : Follows view' (r.map g) (foreseen.map g') := by
  cases h with
  | ok a =>
      change Follows view' (.ok (g a)) (.ok (g' (view a)))
      rw [← hg]
      exact .ok (g a)
  | error f => exact .error f
  | numerical h b => exact .numerical h (g' b)

/-! ### Evaluation -/

/-- What evaluating an operator comes to, as far as shapes settle it. -/
def evaluateShape (op : Operator) (operands : List Shape) : Except Category Shape :=
  if operands.length ≠ op.arity then .error .arity
  else if operands.all op.takes then
    if op.isStructural then .error .notSupported else .ok op.resultShape
  else .error .type

/-- The shape of a result depends on the operator alone. -/
theorem shape_of_evaluate {op : Operator} {operands : List Token} {t : Token}
    (h : evaluate op operands = .ok t) : t.shape = op.resultShape := by
  obtain ⟨-, -, ⟨hrule, b, rfl⟩ | ⟨n, hcomputes, ht⟩⟩ := evaluate_cases h
  · unfold Operator.resultShape
    cases hop : op.rule with
    | arithmetic f | function f =>
        rw [hop] at hrule
        exact absurd trivial hrule
    | _ => rfl
  · rw [Token.shape_of_isNumeric (Token.ofNumber_isNumeric n t ht)]
    unfold Computes at hcomputes
    unfold Operator.resultShape
    cases hop : op.rule with
    | arithmetic f | function f => rfl
    | _ =>
        rw [hop] at hcomputes
        exact hcomputes.elim

/-- **Evaluating does what the shapes of the operands settle.** -/
theorem evaluate_follows (op : Operator) (operands : List Token) :
    Follows Token.shape (evaluate op operands) (evaluateShape op (operands.map Token.shape)) := by
  have htakes : (operands.map Token.shape).all op.takes = operands.all op.accepts := by
    rw [List.all_map]
    congr 1
    funext t
    exact (op.accepts_eq_takes t).symm
  unfold evaluateShape
  rw [List.length_map, htakes]
  by_cases hlength : operands.length = op.arity
  · rw [if_neg (Decidable.not_not.2 hlength)]
    by_cases hkinds : operands.all op.accepts
    · rw [if_pos hkinds]
      by_cases hop : op.isStructural
      · have harity : op.arity = 0 := beq_iff_eq.1 hop
        rw [harity, List.length_eq_zero_iff] at hlength
        rw [if_pos hop, hlength, evaluate_structural harity]
        exact .error _
      · have harity : op.arity ≠ 0 := fun harity => hop (beq_iff_eq.2 harity)
        rw [if_neg hop]
        rcases evaluate_ok_or_numerical harity hlength (List.all_eq_true.1 hkinds) with
          ⟨t, ht⟩ | ⟨f, hf, hcategory⟩
        · rw [ht, ← shape_of_evaluate ht]
          exact .ok t
        · rw [hf]
          exact .numerical hcategory _
    · rw [evaluate, if_neg (Decidable.not_not.2 hlength), if_neg hkinds, if_neg hkinds]
      exact .error _
  · rw [evaluate, if_pos hlength, if_pos hlength]
    exact .error _

end ReversePolish
