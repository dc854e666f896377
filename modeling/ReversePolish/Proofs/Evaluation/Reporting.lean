import Mathlib.Data.List.Basic
import ReversePolish.Evaluation
import ReversePolish.Proofs.Outcomes

/-! # Reported trouble

Arithmetic runs into three sorts of trouble, and the evaluation of an operator reports all three as
numerical faults: `IsReportable` holds of them and of such faults.  No arithmetic fails otherwise
(`Operator.rule_reportable`); the sorts that are not reported, a value of the wrong type and a wrong
number of operands, are kept out by the checks before (`dispatch_reportable`).  So operands that
pass the checks give a token or a numerical fault (`evaluate_ok_or_numerical`), and evaluating gives
a token or a fault, whatever the operands (`evaluate_ok_or_fault`). -/

namespace ReversePolish

/-- The categories of the faults that depend on the values of operands. -/
def Fault.Category.IsNumerical (c : Fault.Category) : Prop := c = .divisionByZero ∨ c = .domain

instance (c : Fault.Category) : Decidable c.IsNumerical := inferInstanceAs (Decidable (_ ∨ _))

namespace Failure

/-- A failure that evaluating an operator reports as a numerical fault. -/
def IsReportable : Failure → Prop
  | fault f => f.category.IsNumerical
  | trouble t => t = .divisionByZero ∨ t = .undefined ∨ t = .overflow

theorem IsReportable.reported {failure : Failure} (h : failure.IsReportable) (op : Operator) :
    ∃ f, failure.reported op = fault f ∧ f.category.IsNumerical := by
  cases failure with
  | fault f => exact ⟨f, rfl, h⟩
  | trouble t =>
      rcases h with rfl | rfl | rfl
      · exact ⟨_, rfl, .inl rfl⟩
      · exact ⟨_, rfl, .inr rfl⟩
      · exact ⟨_, rfl, .inr rfl⟩

/-- Fails only with what evaluating reports. -/
abbrev Reportably {α : Type} (r : Except Failure α) : Prop := FailsOnly IsReportable r

end Failure

open Failure (IsReportable Reportably)

/-! ### Arithmetic -/

namespace Number

theorem asDouble_reportable (n : Number) : Reportably n.asDouble := by
  cases n with
  | integer i =>
      simp only [asDouble]
      split
      · exact .ok _
      · exact .error (.inr (.inr rfl))
  | double x => exact .ok _

theorem truncate_reportable (n : Number) : Reportably n.truncate := by
  match n with
  | integer _ | double (.finite ..) => exact .ok _
  | double (.infinite _) => exact .error (.inr (.inr rfl))
  | double .nan => exact .error (.inr (.inl rfl))

theorem rounded_reportable (f : Binary64 → Binary64 → Binary64) (a b : Number) :
    Reportably (do return double (f (← a.asDouble) (← b.asDouble))) := by
  apply FailsOnly.bind (asDouble_reportable a)
  intro x _
  apply FailsOnly.bind (asDouble_reportable b)
  intro y _
  exact .ok _

theorem lift_reportable (exact : Int → Int → Int) (rounded : Binary64 → Binary64 → Binary64)
    (a b : Number) : Reportably (lift exact rounded a b) := by
  cases a with
  | double x => exact rounded_reportable rounded _ b
  | integer i =>
      cases b with
      | double y => exact rounded_reportable rounded _ _
      | integer j => exact .ok _

theorem ratio_reportable (a b : Int) : Reportably (ratio a b) := by
  simp only [ratio]
  split
  · exact .ok _
  · exact .error (.inr (.inr rfl))

theorem quotient_reportable (a b : Number) : Reportably (quotient a b) := by
  unfold quotient
  split
  · exact .error (.inl rfl)
  · split
    · exact ratio_reportable _ _
    · exact rounded_reportable .div _ _

theorem floorQuotient_reportable (a b : Number) : Reportably (floorQuotient a b) := by
  unfold floorQuotient
  split
  · exact .error (.inl rfl)
  · exact lift_reportable _ _ a b

theorem remainder_reportable (a b : Number) : Reportably (remainder a b) := by
  unfold remainder
  split
  · exact .error (.inl rfl)
  · exact lift_reportable _ _ a b

theorem checked_reportable (finite ordered : Bool) (value : Binary64) :
    Reportably (checked finite ordered value) := by
  unfold checked
  split
  · exact .error (.inr (.inl rfl))
  · split
    · exact .error (.inr (.inr rfl))
    · exact .ok _

theorem function_reportable (f : Binary64 → Binary64) (a : Number) :
    Reportably (function f a) := by
  apply FailsOnly.bind (asDouble_reportable a)
  intro x _
  apply FailsOnly.bind (checked_reportable _ _ _)
  intro y _
  exact .ok _

theorem power_reportable (a b : Number) : Reportably (power a b) := by
  apply FailsOnly.bind (asDouble_reportable a)
  intro x _
  apply FailsOnly.bind (asDouble_reportable b)
  intro y _
  exact checked_reportable _ _ _

theorem div_reportable (a b : Number) : Reportably (div a b) := by
  unfold div
  split
  · exact .error (.inl rfl)
  · split
    · split
      · exact .ok _
      · exact quotient_reportable _ _
    · exact quotient_reportable _ _

theorem floorDiv_reportable (a b : Number) : Reportably (floorDiv a b) := by
  unfold floorDiv
  split
  · exact .error (.inl rfl)
  · exact floorQuotient_reportable a b

theorem floorMod_reportable (a b : Number) : Reportably (floorMod a b) := by
  unfold floorMod
  split
  · exact .error (.inl rfl)
  · exact remainder_reportable a b

theorem pow_reportable (a b : Number) : Reportably (pow a b) := by
  unfold pow
  split
  · exact .error (.inl rfl)
  · apply FailsOnly.bind (power_reportable a b)
    intro approximate _
    split
    · split
      · exact .ok _
      · exact .ok _
    · exact .ok _

end Number

/-! ### Building tokens -/

namespace Token

theorem outOfRange_reportable (i : Int) {failure : Failure} (h : failure.IsReportable) :
    (outOfRange i failure).IsReportable := by
  cases failure with
  | fault f => exact h
  | trouble t =>
      cases t with
      | overflow =>
          dsimp only [outOfRange]
          cases Numeral.isWritable i with
          | true => exact .inr rfl
          | false => exact .inr (.inl rfl)
      | _ => exact h

theorem ofInt_reportable (i : Int) : Reportably (ofInt i) := by
  unfold ofInt
  split
  · exact .ok _
  · exact .mapError (.map (Number.asDouble_reportable _)) fun _ => outOfRange_reportable i

theorem ofIntegral_reportable {x : Binary64} (h : x.isIntegral) : Reportably (ofIntegral x) := by
  rw [ofIntegral, if_pos h]
  apply FailsOnly.bind (Number.truncate_reportable _)
  intro i _
  exact ofInt_reportable i

theorem ofDouble_reportable (x : Binary64) : Reportably (ofDouble x) := by
  unfold ofDouble
  split
  next h => exact ofIntegral_reportable (Bool.and_eq_true_iff.1 h).1
  · exact .ok _

theorem ofNumber_reportable (n : Number) : Reportably (ofNumber n) := by
  cases n with
  | integer i => exact ofInt_reportable i
  | double x => exact ofDouble_reportable x

/-- A token with a quantity has its truth, unless it is beyond the doubles. -/
theorem truth_reportable {t : Token} {n : Number} (h : t.quantity? = some n) :
    Reportably t.truth := by
  refine .map ?_
  rw [toDouble, h]
  exact Number.asDouble_reportable n

end Token

/-! ### Rules -/

/-- The number of operands that a rule takes. -/
def Rule.arity : Rule → Nat
  | arithmetic _ | comparison _ | connective _ => 2
  | function _ | negation => 1
  | structural => 0

theorem Operator.arity_rule (op : Operator) : op.rule.arity = op.arity := by cases op <;> rfl

/-- What a rule computes with fails only reportably. -/
def Rule.IsReportable : Rule → Prop
  | arithmetic f => ∀ a b, Reportably (f a b)
  | function f => ∀ a, Reportably (f a)
  | _ => True

theorem Operator.rule_reportable (op : Operator) : op.rule.IsReportable := by
  cases op with
  | add | sub | mul => exact fun a b => Number.lift_reportable _ _ a b
  | div => exact Number.div_reportable
  | eucDiv => exact Number.floorDiv_reportable
  | mod => exact Number.floorMod_reportable
  | pow => exact Number.pow_reportable
  | neg => exact fun a => .ok _
  | sin | cos | tan | arcsin | arccos | arctan | sqrt | exp | ln =>
      exact Number.function_reportable _
  | _ => trivial

/-! ### Evaluation -/

/-- An operator accepts only tokens with a quantity. -/
theorem Operator.exists_quantity {op : Operator} {t : Token} (h : op.accepts t) :
    ∃ n, t.quantity? = some n := by
  cases t with
  | integer cell => exact ⟨_, rfl⟩
  | float x => exact ⟨_, rfl⟩
  | boolean b => exact ⟨_, rfl⟩
  | _ => simp [Operator.accepts, Token.isNumeric, Token.isBoolean, Token.kind] at h

theorem Token.operand_reportable {op : Operator} {t : Token} (h : op.accepts t) :
    Reportably t.operand := by
  obtain ⟨n, hn⟩ := Operator.exists_quantity h
  rw [operand, hn]
  exact .ok n

theorem Token.truth_of_accepts {op : Operator} {t : Token} (h : op.accepts t) :
    Reportably t.truth := by
  obtain ⟨n, hn⟩ := Operator.exists_quantity h
  exact truth_reportable hn

theorem unpackOne_reportable {op : Operator} {a : Token} (h : op.accepts a) :
    Reportably (unpackOne [a]) := Token.operand_reportable h

theorem unpackTwo_reportable {op : Operator} {a b : Token} (ha : op.accepts a)
    (hb : op.accepts b) : Reportably (unpackTwo [a, b]) := by
  apply FailsOnly.bind (Token.operand_reportable ha)
  intro m _
  apply FailsOnly.bind (Token.operand_reportable hb)
  intro n _
  exact .ok _

/-- With the right number of operands of the right kinds, computing fails only reportably. -/
theorem dispatch_reportable {op : Operator} {operands : List Token} (hop : op.arity ≠ 0)
    (hlength : operands.length = op.arity) (hkinds : ∀ t ∈ operands, op.accepts t) :
    Reportably (dispatch op operands) := by
  have hreportable := op.rule_reportable
  rw [← op.arity_rule] at hop hlength
  unfold dispatch
  cases hrule : op.rule with
  | structural =>
      rw [hrule] at hop
      exact absurd rfl hop
  | arithmetic f =>
      rw [hrule] at hlength hreportable
      obtain ⟨a, b, rfl⟩ := List.length_eq_two.1 hlength
      have hoperands := unpackTwo_reportable (hkinds a (by simp)) (hkinds b (by simp))
      apply FailsOnly.bind hoperands
      intro (m, n) _
      apply FailsOnly.bind (hreportable m n)
      intro result _
      exact Token.ofNumber_reportable result
  | comparison f =>
      rw [hrule] at hlength
      obtain ⟨a, b, rfl⟩ := List.length_eq_two.1 hlength
      have hoperands := unpackTwo_reportable (hkinds a (by simp)) (hkinds b (by simp))
      apply FailsOnly.bind hoperands
      intro (m, n) _
      exact .ok _
  | function f =>
      rw [hrule] at hlength hreportable
      obtain ⟨a, rfl⟩ := List.length_eq_one_iff.1 hlength
      apply FailsOnly.bind (unpackOne_reportable (hkinds a (by simp)))
      intro n _
      apply FailsOnly.bind (hreportable n)
      intro result _
      exact Token.ofNumber_reportable result
  | connective f =>
      rw [hrule] at hlength
      obtain ⟨a, b, rfl⟩ := List.length_eq_two.1 hlength
      simp only [List.mapM_cons, List.mapM_nil, pure_bind, bind_assoc]
      apply FailsOnly.bind (Token.truth_of_accepts (hkinds a (by simp)))
      intro p _
      apply FailsOnly.bind (Token.truth_of_accepts (hkinds b (by simp)))
      intro q _
      exact .ok _
  | negation =>
      rw [hrule] at hlength
      obtain ⟨a, rfl⟩ := List.length_eq_one_iff.1 hlength
      simp only [List.mapM_cons, List.mapM_nil, pure_bind, bind_assoc]
      apply FailsOnly.bind (Token.truth_of_accepts (hkinds a (by simp)))
      intro p _
      exact .ok _

/-- **Operands that pass the checks give a token or a numerical fault.** -/
theorem evaluate_ok_or_numerical {op : Operator} {operands : List Token} (hop : op.arity ≠ 0)
    (hlength : operands.length = op.arity) (hkinds : ∀ t ∈ operands, op.accepts t) :
    (∃ t, evaluate op operands = .ok t) ∨
      ∃ f, evaluate op operands = .error (.fault f) ∧ f.category.IsNumerical := by
  have hreportable := dispatch_reportable hop hlength hkinds
  rw [evaluate, if_neg (Decidable.not_not.2 hlength), if_pos (List.all_eq_true.2 hkinds)]
  cases hdispatch : dispatch op operands with
  | ok t => exact .inl ⟨t, rfl⟩
  | error failure =>
      obtain ⟨f, hf, hcategory⟩ := (hreportable failure hdispatch).reported op
      exact .inr ⟨f, congrArg Except.error hf, hcategory⟩

/-- Operators on the stack itself are not evaluated. -/
theorem evaluate_structural {op : Operator} (hop : op.arity = 0) :
    evaluate op [] = .error (.fault (.notSupported op)) := by
  have hrule : op.rule = .structural := by
    cases op with
    | dup | drop | swap | lastop | lastargs | undo | redo | clear => rfl
    | _ => cases hop
  rw [evaluate, hop, dispatch, hrule]
  rfl

/-- **Evaluating gives a token or a fault**, whatever the operands. -/
theorem evaluate_ok_or_fault (op : Operator) (operands : List Token) :
    (∃ t, evaluate op operands = .ok t) ∨ ∃ f, evaluate op operands = .error (.fault f) := by
  by_cases hlength : operands.length = op.arity
  · by_cases hkinds : ∀ t ∈ operands, op.accepts t
    · by_cases hop : op.arity = 0
      · rw [hop, List.length_eq_zero_iff] at hlength
        rw [hlength]
        exact .inr ⟨_, evaluate_structural hop⟩
      · rcases evaluate_ok_or_numerical hop hlength hkinds with h | ⟨f, h, -⟩
        · exact .inl h
        · exact .inr ⟨f, h⟩
    · rw [evaluate, if_neg (Decidable.not_not.2 hlength),
        if_neg (mt List.all_eq_true.1 hkinds)]
      exact .inr ⟨_, rfl⟩
  · rw [evaluate, if_pos hlength]
    exact .inr ⟨_, rfl⟩

end ReversePolish
