import ReversePolish.Proofs.Evaluation.Accounts

/-! # Where evaluating fails

Evaluating fails for five causes, looked for in this order: the number of the operands, their
kinds, an operator that works on the stack itself, a division by zero, and a place where the
operator has no value.  Each is reported exactly where it is (`FailsJust`), and where there is none
a token comes out, of a kind that the operator alone settles (`evaluate_fails_exactly`). -/

namespace ReversePolish

open Fault (Category)

variable {op : Operator} {operands : List Token}

/-! ### Results -/

/-- A token comes out: a number from arithmetic and functions, and else a truth value. -/
def GivesResult (op : Operator) (operands : List Token) : Prop :=
  ∃ t, evaluate op operands = .ok t ∧ (op.rule.IsNumeric → t.isNumeric) ∧
    (¬ op.rule.IsNumeric → t.isBoolean)

theorem Computes.isNumeric {n : Number} (h : Computes op operands n) : op.rule.IsNumeric := by
  unfold Computes at h
  cases hrule : op.rule with
  | arithmetic f | function f => trivial
  | _ =>
      rw [hrule] at h
      exact h

theorem givesResult {t : Token} (h : evaluate op operands = .ok t) : GivesResult op operands := by
  obtain ⟨-, -, ⟨hrule, b, rfl⟩ | ⟨n, hcomputes, ht⟩⟩ := evaluate_cases h
  · exact ⟨_, h, fun hnumeric => absurd hnumeric hrule, fun _ => rfl⟩
  · exact ⟨t, h, fun _ => Token.ofNumber_isNumeric n t ht,
      fun hrule => absurd hcomputes.isNumeric hrule⟩

/-! ### Errors -/

/-- A computation fails with the fault under a condition, and in its category under no other. -/
structure FailsJust (r : Except Failure Token) (f : Fault) (P : Prop) : Prop where
  fault : r = .error (.fault f) ↔ P
  category : (∃ g, r = .error (.fault g) ∧ g.category = f.category) ↔ P

theorem FailsJust.of {r : Except Failure Token} {f : Fault} {P : Prop}
    (h : P → r = .error (.fault f))
    (hnot : ¬ P → ∀ g, r = .error (.fault g) → g.category ≠ f.category) : FailsJust r f P := by
  refine ⟨⟨fun hr => ?_, h⟩, ⟨?_, fun hP => ⟨f, h hP, rfl⟩⟩⟩
  · by_contra hP
    exact hnot hP f hr rfl
  · rintro ⟨g, hr, hg⟩
    by_contra hP
    exact hnot hP g hr hg

/-- What the first two checks let through does not fail for what they look for, and an operator
that does not work on the stack itself is supported. -/
theorem category_of_accepts (hlength : operands.length = op.arity)
    (hkinds : ∀ t ∈ operands, op.accepts t) {g : Fault}
    (hg : evaluate op operands = .error (.fault g)) :
    g.category ≠ .arity ∧ g.category ≠ .type ∧
      (¬ op.isStructural → g.category ≠ .notSupported) := by
  by_cases hop : op.isStructural
  · have harity := beq_iff_eq.1 hop
    rw [harity, List.length_eq_zero_iff] at hlength
    rw [hlength, evaluate_structural harity] at hg
    cases hg
    exact ⟨nofun, nofun, fun h => absurd hop h⟩
  · have harity : op.arity ≠ 0 := fun harity => hop (beq_iff_eq.2 harity)
    rcases evaluate_ok_or_numerical harity hlength hkinds with ⟨t, ht⟩ | ⟨f, hf, hcategory⟩
    · cases ht.symm.trans hg
    · cases hf.symm.trans hg
      rcases hcategory with h | h <;>
        exact h ▸ ⟨by decide, by decide, fun _ => by decide⟩

theorem forall_accepts_iff : (∀ t ∈ operands, op.accepts t) ↔ ∀ t ∈ operands, op.Admits t :=
  forall₂_congr fun _ _ => Operator.accepts_iff_admits

theorem evaluate_of_not_accepts (hlength : operands.length = op.arity)
    (h : ¬ ∀ t ∈ operands, op.accepts t) :
    evaluate op operands = .error (.fault (.operandKinds op (operands.map Token.kind))) := by
  rw [evaluate, if_neg (Decidable.not_not.2 hlength), if_neg (mt List.all_eq_true.1 h)]

theorem fails_arity (op : Operator) (operands : List Token) :
    FailsJust (evaluate op operands) (.arity op op.arity operands.length)
      (operands.length ≠ op.arity) := by
  refine .of (fun hlength => if_pos hlength) fun hlength g hg => ?_
  rw [not_not] at hlength
  by_cases hkinds : ∀ t ∈ operands, op.accepts t
  · exact (category_of_accepts hlength hkinds hg).1
  · cases (evaluate_of_not_accepts hlength hkinds).symm.trans hg
    nofun

theorem fails_kinds (hlength : operands.length = op.arity) :
    FailsJust (evaluate op operands) (.operandKinds op (operands.map Token.kind))
      (∃ t ∈ operands, ¬ op.Admits t) := by
  have hnot : (∃ t ∈ operands, ¬ op.Admits t) ↔ ¬ ∀ t ∈ operands, op.accepts t := by
    rw [forall_accepts_iff]
    simp only [not_forall, exists_prop]
  rw [hnot]
  refine .of (evaluate_of_not_accepts hlength) fun hkinds g hg => ?_
  exact (category_of_accepts hlength (not_not.1 hkinds) hg).2.1

theorem fails_structural (hlength : operands.length = op.arity)
    (hkinds : ∀ t ∈ operands, op.accepts t) :
    FailsJust (evaluate op operands) (.notSupported op) op.isStructural := by
  refine .of (fun hop => ?_) fun hop g hg => ?_
  · have harity := beq_iff_eq.1 hop
    rw [harity, List.length_eq_zero_iff] at hlength
    rw [hlength]
    exact evaluate_structural harity
  · exact (category_of_accepts hlength hkinds hg).2.2 hop

theorem Accounted.fails_byZero (h : Accounted op operands) :
    FailsJust (evaluate op operands) .divisionByZero (DividesByZero op operands) := by
  refine .of h.byZero fun hzero g hg => ?_
  by_cases hdomain : LeavesDomain op operands
  · cases (h.outside hzero hdomain).symm.trans hg
    nofun
  · obtain ⟨t, ht⟩ := h.inside hzero hdomain
    cases ht.symm.trans hg

theorem Accounted.fails_outside (h : Accounted op operands)
    (hzero : ¬ DividesByZero op operands) :
    FailsJust (evaluate op operands) (.undefined op) (LeavesDomain op operands) := by
  refine .of (h.outside hzero) fun hdomain g hg => ?_
  obtain ⟨t, ht⟩ := h.inside hzero hdomain
  cases ht.symm.trans hg

/-- **Where evaluating fails, and with what; everywhere else it gives a result.** -/
theorem evaluate_fails_exactly (op : Operator) (operands : List Token) :
    FailsJust (evaluate op operands) (.arity op op.arity operands.length)
      (operands.length ≠ op.arity) ∧
    (operands.length = op.arity →
      FailsJust (evaluate op operands) (.operandKinds op (operands.map Token.kind))
        (∃ t ∈ operands, ¬ op.Admits t) ∧
      ((∀ t ∈ operands, op.Admits t) →
        FailsJust (evaluate op operands) (.notSupported op) op.isStructural ∧
        (¬ op.isStructural →
          FailsJust (evaluate op operands) .divisionByZero (DividesByZero op operands) ∧
          (¬ DividesByZero op operands →
            FailsJust (evaluate op operands) (.undefined op) (LeavesDomain op operands) ∧
            (¬ LeavesDomain op operands → GivesResult op operands))) ∧
        (op.IsTotal → GivesResult op operands))) := by
  refine ⟨fails_arity op operands, fun hlength => ⟨fails_kinds hlength, fun hadmits => ?_⟩⟩
  have hkinds := forall_accepts_iff.2 hadmits
  refine ⟨fails_structural hlength hkinds, fun hop => ?_, fun htotal => ?_⟩
  · have haccounted := accounted hlength hkinds hop
    refine ⟨haccounted.fails_byZero, fun hzero => ?_⟩
    refine ⟨haccounted.fails_outside hzero, fun hdomain => ?_⟩
    obtain ⟨t, ht⟩ := haccounted.inside hzero hdomain
    exact givesResult ht
  · obtain ⟨t, ht⟩ := (accounted hlength hkinds htotal.not_structural).inside
      htotal.not_dividesByZero htotal.not_leavesDomain
    exact givesResult ht

/-- One computation for each cause, and an infinity that has a result. -/
theorem evaluate_fails_exactly_each :
    evaluate .add [] = .error (.fault (.arity .add 2 0)) ∧
      evaluate .sqrt [.boolean true] = .error (.fault (.operandKinds .sqrt [.boolean])) ∧
      evaluate .dup [] = .error (.fault (.notSupported .dup)) ∧
      evaluate .mod [.float .nan, .float (.zero true)] = .error (.fault .divisionByZero) ∧
      evaluate .exp [.integer ⟨710, by decide, by decide⟩] = .error (.fault (.undefined .exp)) ∧
      GivesResult .exp [.float (.infinite false)] ∧
      GivesResult .arctan [.float (.infinite true)] := by
  have hnumbers {op : Operator} {operands : List Token}
      (h : ∀ t ∈ operands, t.kind = .integer ∨ t.kind = .float) : ∀ t ∈ operands, op.Admits t :=
    fun t ht => (h t ht).imp_right .inl
  refine ⟨(evaluate_fails_exactly .add []).1.fault.2 (by decide), ?_, ?_, ?_, ?_, ?_, ?_⟩
  · refine ((evaluate_fails_exactly .sqrt [.boolean true]).2 rfl).1.fault.2
      ⟨.boolean true, List.mem_singleton_self _, ?_⟩
    simp [Operator.Admits, Token.kind]
  · exact (((evaluate_fails_exactly .dup []).2 rfl).2 (by simp)).1.fault.2 rfl
  · have hmod := ((evaluate_fails_exactly .mod [.float .nan, .float (.zero true)]).2 rfl).2
      (hnumbers (by simp [Token.kind]))
    have hzero : (Token.float (.zero true)).value? = some 0 :=
      (Number.isZero_iff_value (a := .double (.zero true))).1 rfl
    exact (hmod.2.1 (by decide)).1.fault.2 (.inl ⟨by decide, hzero⟩)
  · have hexp := ((evaluate_fails_exactly .exp [.integer ⟨710, by decide, by decide⟩]).2 rfl).2
      (hnumbers (by simp [Token.kind]))
    refine ((hexp.2.1 (by decide)).2 id).1.fault.2 ⟨_, rfl, ?_⟩
    exact Binary64.expOverflows_intCast.2 (Int.cast_lt.2 (by decide))
  · have hexp := ((evaluate_fails_exactly .exp [.float (.infinite false)]).2 rfl).2
      (hnumbers (by simp [Token.kind]))
    refine ((hexp.2.1 (by decide)).2 id).2 ?_
    rintro ⟨v, hv, r, rfl, -⟩
    exact EReal.top_ne_coe r (Option.some.inj hv)
  · exact (((evaluate_fails_exactly .arctan [.float (.infinite true)]).2 rfl).2
      (hnumbers (by simp [Token.kind]))).2.2 (by decide)

end ReversePolish
