import ReversePolish.Proofs.Evaluation.Reporting

/-! # Evaluation by rules

With operands of the kinds that its rule asks for, an operator evaluates to what the rule computes:
one equation for each kind of rule.  Nothing else has to be known of the operator but its rule. -/

namespace ReversePolish

variable {op : Operator} {s u : Token} {a b : Number}

/-! ### Operands -/

namespace Token

theorem quantity_of_number (h : s.number? = some a) : s.quantity? = some a := by
  cases s with
  | integer cell | float x => exact h
  | _ => cases h

theorem isNumeric_iff_number : s.isNumeric ↔ ∃ a, s.number? = some a := by
  cases s with
  | integer cell | float x => exact iff_of_true rfl ⟨_, rfl⟩
  | _ =>
      refine iff_of_false nofun ?_
      rintro ⟨a, h⟩
      cases h

theorem operand_of_quantity (h : s.quantity? = some a) : s.operand = .ok a := by
  rw [operand, h]

end Token

namespace Operator

theorem accepts_of_number (op : Operator) (h : s.number? = some a) : op.accepts s := by
  rw [accepts, Token.isNumeric_iff_number.2 ⟨a, h⟩, Bool.true_or]

theorem accepts_of_quantity (htruth : op.takesTruth) (h : s.quantity? = some a) :
    op.accepts s := by
  cases s with
  | integer cell | float x => rfl
  | boolean c => simp [accepts, htruth, Token.isBoolean, Token.kind]
  | _ => cases h

end Operator

theorem unpackOne_of_quantity (hs : s.quantity? = some a) : unpackOne [s] = .ok a :=
  Token.operand_of_quantity hs

theorem unpackTwo_of_quantity (hs : s.quantity? = some a) (hu : u.quantity? = some b) :
    unpackTwo [s, u] = .ok (a, b) := by
  rw [unpackTwo, Token.operand_of_quantity hs, Token.operand_of_quantity hu]
  rfl

/-! ### Equations -/

/-- Behind the checks only the rule is left. -/
theorem evaluate_of_accepts {operands : List Token} (hlength : operands.length = op.rule.arity)
    (hkinds : ∀ t ∈ operands, op.accepts t) :
    evaluate op operands = (dispatch op operands).mapError (Failure.reported op) := by
  rw [op.arity_rule] at hlength
  rw [evaluate, if_neg (Decidable.not_not.2 hlength), if_pos (List.all_eq_true.2 hkinds)]

theorem evaluate_one (hrule : op.rule.arity = 1) (hs : op.accepts s) :
    evaluate op [s] = (dispatch op [s]).mapError (Failure.reported op) :=
  evaluate_of_accepts hrule.symm (by simpa using hs)

theorem evaluate_two (hrule : op.rule.arity = 2) (hs : op.accepts s) (hu : op.accepts u) :
    evaluate op [s, u] = (dispatch op [s, u]).mapError (Failure.reported op) :=
  evaluate_of_accepts hrule.symm (by simpa using ⟨hs, hu⟩)

theorem evaluate_arithmetic {f : Number → Number → Except Failure Number}
    (hrule : op.rule = .arithmetic f) (hs : s.number? = some a) (hu : u.number? = some b) :
    evaluate op [s, u] = ((f a b).bind Token.ofNumber).mapError (Failure.reported op) := by
  rw [evaluate_two (by rw [hrule]; rfl) (op.accepts_of_number hs) (op.accepts_of_number hu),
    dispatch, hrule]
  dsimp only
  rw [unpackTwo_of_quantity (Token.quantity_of_number hs) (Token.quantity_of_number hu)]
  rfl

theorem evaluate_function {f : Number → Except Failure Number} (hrule : op.rule = .function f)
    (hs : s.number? = some a) :
    evaluate op [s] = ((f a).bind Token.ofNumber).mapError (Failure.reported op) := by
  rw [evaluate_one (by rw [hrule]; rfl) (op.accepts_of_number hs), dispatch, hrule]
  dsimp only
  rw [unpackOne_of_quantity (Token.quantity_of_number hs)]
  rfl

theorem evaluate_comparison {f : Number → Number → Bool} (hrule : op.rule = .comparison f)
    (hs : op.accepts s) (hu : op.accepts u) (ha : s.quantity? = some a)
    (hb : u.quantity? = some b) : evaluate op [s, u] = .ok (.boolean (f a b)) := by
  rw [evaluate_two (by rw [hrule]; rfl) hs hu, dispatch, hrule]
  dsimp only
  rw [unpackTwo_of_quantity ha hb]
  rfl

theorem evaluate_connective {f : Bool → Bool → Bool} (hrule : op.rule = .connective f)
    (hs : op.accepts s) (hu : op.accepts u) {p q : Bool} (hp : s.truth = .ok p)
    (hq : u.truth = .ok q) : evaluate op [s, u] = .ok (.boolean (f p q)) := by
  rw [evaluate_two (by rw [hrule]; rfl) hs hu, dispatch, hrule]
  simp only [List.mapM_cons, List.mapM_nil, hp, hq]
  rfl

theorem evaluate_negation (hrule : op.rule = .negation) (hs : op.accepts s) {p : Bool}
    (hp : s.truth = .ok p) : evaluate op [s] = .ok (.boolean !p) := by
  rw [evaluate_one (by rw [hrule]; rfl) hs, dispatch, hrule]
  simp only [List.mapM_cons, List.mapM_nil, hp]
  rfl

end ReversePolish
