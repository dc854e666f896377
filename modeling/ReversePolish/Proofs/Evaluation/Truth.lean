import ReversePolish.Proofs.Evaluation.Comparison
import ReversePolish.Proofs.Evaluation.Domain

/-! # Truth

A value is true unless it is zero.  Four parts of the calculator ask for that, each in its own way:
`isZero` looks at the exact value and `truth` at the double nearest to it, `==` compares with the
integer zero, and the connectives combine truths.  No integer but zero rounds to zero
(`isZero_asDouble`), and a double is zero under either sign, so the answers are the same
(`truths_agree`).  A NaN is not zero, and so it is true. -/

namespace ReversePolish

theorem cellMin_le_zero : cellMin ≤ 0 := by decide

theorem zero_le_cellMax : 0 ≤ cellMax := by decide

/-- The integer zero. -/
def Cell.zero : Cell := ⟨0, cellMin_le_zero, zero_le_cellMax⟩

variable {op : Operator} {t u : Token} {a : Number} {x : Binary64}

/-! ### Zero -/

namespace Number

/-- Rounding takes zero to zero and nothing else. -/
theorem isZero_asDouble (h : a.asDouble = .ok x) : x.isZero = a.isZero := by
  have hvalue : x.isZero ↔ x.value? = some 0 := isZero_iff_value (a := double x)
  rw [Bool.eq_iff_iff, hvalue, isZero_iff_value]
  cases hv : a.value? with
  | none =>
      rw [asDouble_eq_nan h hv]
      exact Iff.rfl
  | some v =>
      obtain ⟨w, hw, hzero⟩ := exists_rounded_value .eq_zero h hv
      rw [hw, Option.some.injEq, Option.some.injEq, hzero]

/-- Being equal to the integer zero. -/
theorem eq_zero (a : Number) : a.eq (integer 0) = a.isZero := by
  rw [Bool.eq_iff_iff, isZero_iff_value]
  cases hv : a.value? with
  | none => simp [(unordered (b := integer 0) (.inl hv)).2.1]
  | some v => rw [eq_iff hv value?_integer_zero, Option.some.injEq]

end Number

namespace Token

theorem fitsCell_of_quantity (h : t.quantity? = some a) : a.FitsCell :=
  fitsCell_of_operand (operand_of_quantity h)

theorem isZero_of_quantity (h : t.quantity? = some a) : t.isZero = a.isZero := by
  rw [isZero, h, Option.any_some]

theorem isZero_iff_value (t : Token) : t.isZero ↔ t.quantityValue? = some 0 := by
  rw [isZero, quantityValue?]
  cases t.quantity? with
  | none => exact iff_of_false Bool.false_ne_true (Option.some_ne_none _).symm
  | some a => exact Number.isZero_iff_value

/-- The truth of a value is that it is not zero. -/
theorem truth_eq (ht : t.IsValue) : t.truth = .ok (!t.isZero) := by
  obtain ⟨a, ha⟩ := isValue_iff_quantity.1 ht
  obtain ⟨x, hx⟩ := Number.exists_double (fitsCell_of_quantity ha)
  have hdouble : t.toDouble = .ok x := by
    rw [toDouble, ha]
    exact hx
  rw [truth, hdouble, isZero_of_quantity ha, ← Number.isZero_asDouble hx]
  rfl

end Token

theorem Operator.truth_eq_of_accepts (h : op.accepts t) : t.truth = .ok (!t.isZero) :=
  Token.truth_eq (Token.isValue_iff_quantity.2 (exists_quantity h))

/-! ### Logic -/

theorem Operator.accepts_of_isValue (htruth : op.takesTruth) (ht : t.IsValue) : op.accepts t := by
  obtain ⟨a, ha⟩ := Token.isValue_iff_quantity.1 ht
  exact accepts_of_quantity htruth ha

theorem evaluate_not (ht : t.IsValue) : evaluate .not [t] = .ok (.boolean t.isZero) := by
  rw [evaluate_negation rfl (Operator.accepts_of_isValue rfl ht) (Token.truth_eq ht),
    Bool.not_not]

theorem evaluate_eq_zero (ht : t.IsValue) :
    evaluate .eq [t, .integer .zero] = .ok (.boolean t.isZero) := by
  obtain ⟨a, ha⟩ := Token.isValue_iff_quantity.1 ht
  have hzero : (Token.integer .zero).quantity? = some (.integer 0) := rfl
  rw [evaluate_comparison rfl (Operator.accepts_of_quantity rfl ha)
    (Operator.accepts_of_quantity rfl hzero) ha hzero, Number.eq_zero, Token.isZero_of_quantity ha]

/-- A connective of truths. -/
theorem connective_finds {f : Bool → Bool → Bool} (hrule : op.rule = .connective f)
    (htruth : op.takesTruth) (ht : t.IsValue) (hu : u.IsValue) {P : Prop}
    (hP : f (!t.isZero) (!u.isZero) ↔ P) : Finds op t u P :=
  ⟨_, evaluate_connective hrule (Operator.accepts_of_isValue htruth ht)
    (Operator.accepts_of_isValue htruth hu) (Token.truth_eq ht) (Token.truth_eq hu), hP⟩

/-- **All notions of truth agree**: a value is true if and only if it is not zero. -/
theorem truths_agree (ht : t.IsValue) (hu : u.IsValue) :
    t.truth = .ok (!t.isZero) ∧
      evaluate .not [t] = .ok (.boolean t.isZero) ∧
      evaluate .not [t] = evaluate .eq [t, .integer .zero] ∧
      Finds .and t u (¬ t.isZero ∧ ¬ u.isZero) ∧
      Finds .or t u (¬ (t.isZero ∧ u.isZero)) ∧
      (t.isZero ↔ t.quantityValue? = some 0) ∧
      (t = .float .nan → t.truth = .ok true) := by
  refine ⟨Token.truth_eq ht, evaluate_not ht, ?_, ?_, ?_, t.isZero_iff_value, ?_⟩
  · rw [evaluate_not ht, evaluate_eq_zero ht]
  · exact connective_finds rfl rfl ht hu (by simp)
  · exact connective_finds rfl rfl ht hu (by simp [← Bool.not_and])
  · rintro rfl
    rfl

/-- A NaN is true, and a negative zero, which is built by hand, is false. -/
theorem truths_agree_nan :
    (Token.float .nan).truth = .ok true ∧
      evaluate .not [.float .nan] = .ok (.boolean false) ∧
      ¬ Holds .and (.float .nan) (.float (.zero true)) ∧
      Holds .or (.float .nan) (.float (.zero true)) ∧
      evaluate .not [.float (.zero true)] = evaluate .eq [.float (.zero true), .integer .zero] := by
  obtain ⟨-, hnot, -, hand, hor, -, hnan⟩ :=
    truths_agree (t := .float .nan) (u := .float (.zero true)) trivial trivial
  obtain ⟨-, -, hequal, -⟩ :=
    truths_agree (t := .float (.zero true)) (u := .float .nan) trivial trivial
  refine ⟨hnan rfl, hnot, mt hand.holds_iff.1 ?_, hor.holds_iff.2 ?_, hequal⟩
  · decide
  · decide

end ReversePolish
