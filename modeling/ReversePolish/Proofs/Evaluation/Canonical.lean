import ReversePolish.Proofs.Evaluation.Results
import ReversePolish.Proofs.Number.ExactPower
import ReversePolish.Proofs.Token.Canonical

/-! # Canonical results

The result of an operator is canonical if the number it computes is not an integer just below the
cells (`Token.isCanonical_ofNumber`).  From integers that fit a cell only a sum, a difference or a
product can be that (`Operator.rule_settled`): a quotient, a remainder and a negation stay above,
and an exact power is taken only where it fits.  So `exactResult?` decides
(`isCanonical_evaluate`). -/

namespace ReversePolish

/-- The value of an operand: an integer fits a cell. -/
def Number.FitsCell : Number → Prop
  | integer i => cellMin ≤ i ∧ i ≤ cellMax
  | double _ => True

/-- Not an integer just below the cells. -/
def Number.IsSettled : Number → Prop
  | integer i => ¬ JustBelowCells i
  | double _ => True

namespace Token

theorem fitsCell_of_operand {t : Token} {n : Number} (h : t.operand = .ok n) : n.FitsCell := by
  cases t with
  | integer cell =>
      obtain rfl := Except.ok.inj h
      exact ⟨cell.min_le, cell.le_max⟩
  | float x =>
      obtain rfl := Except.ok.inj h
      trivial
  | boolean b =>
      obtain rfl := Except.ok.inj h
      cases b <;> exact ⟨by decide, by decide⟩
  | _ => cases h

theorem isCanonical_ofNumber {n : Number} {t : Token} (h : ofNumber n = .ok t) :
    t.IsCanonical ↔ n.IsSettled := by
  cases n with
  | integer i => exact isCanonical_ofInt h
  | double x =>
      obtain ⟨u, hu, hcanonical⟩ := ofDouble_canonical x
      obtain rfl := Except.ok.inj (hu.symm.trans h)
      exact iff_of_true hcanonical trivial

end Token

/-! ### Integers that fit -/

theorem cellMin_le_ediv {a b : Int} (hb : 0 < b) (ha : cellMin ≤ a) : cellMin ≤ a / b := by
  rw [Int.le_ediv_iff_mul_le hb]
  calc cellMin * b ≤ cellMin * 1 := Int.mul_le_mul_of_nonpos_left (by decide) hb
    _ ≤ a := by rwa [Int.mul_one]

theorem cellMin_le_fdiv {a b : Int} (ha : cellMin ≤ a ∧ a ≤ cellMax) : cellMin ≤ a.fdiv b := by
  rcases Int.lt_trichotomy b 0 with hb | rfl | hb
  · rw [← Int.neg_fdiv_neg, Int.fdiv_eq_ediv_of_nonneg _ (by omega)]
    have hneg : cellMin ≤ -a := by
      rw [cellMin, cellMax] at *
      omega
    exact cellMin_le_ediv (by omega) hneg
  · rw [Int.fdiv_zero]
    decide
  · rw [Int.fdiv_eq_ediv_of_nonneg _ (Int.le_of_lt hb)]
    exact cellMin_le_ediv hb ha.1

theorem cellMin_le_fmod {a b : Int} (ha : cellMin ≤ a) (hb : cellMin ≤ b) :
    cellMin ≤ a.fmod b := by
  rcases Int.lt_trichotomy b 0 with hneg | rfl | hpos
  · have hlt := Int.fmod_lt_of_pos (-a) (by omega : 0 < -b)
    rw [Int.neg_fmod_neg] at hlt
    omega
  · rwa [Int.fmod_zero]
  · exact Int.le_trans (by decide) (Int.fmod_nonneg_of_pos a hpos)

namespace Number

/-! ### Arithmetic -/

/-- Computing with doubles gives a double. -/
theorem rounded_settled (f : Binary64 → Binary64 → Binary64) (a b : Number) :
    Returns IsSettled (do return double (f (← a.asDouble) (← b.asDouble))) := by
  apply Returns.bind
  intro x _
  apply Returns.bind
  intro y _
  exact .ok trivial

theorem lift_settled {exact : Int → Int → Int} (rounded : Binary64 → Binary64 → Binary64)
    {a b : Number} (h : ∀ i j, a = integer i → b = integer j → ¬ JustBelowCells (exact i j)) :
    Returns IsSettled (lift exact rounded a b) := by
  cases a with
  | double x => exact rounded_settled rounded _ b
  | integer i =>
      cases b with
      | double y => exact rounded_settled rounded _ _
      | integer j => exact .ok (h i j rfl rfl)

theorem quotient_settled (a b : Number) : Returns IsSettled (quotient a b) := by
  unfold quotient
  split
  · exact .error _
  · split
    · unfold ratio
      dsimp only
      split
      · exact .ok trivial
      · exact .error _
    · exact rounded_settled .div _ _

theorem div_settled {a : Number} (ha : a.FitsCell) (b : Number) :
    Returns IsSettled (div a b) := by
  unfold div
  split
  · exact .error _
  · split
    · split
      · exact .ok (not_justBelowCells (cellMin_le_fdiv ha))
      · exact quotient_settled _ _
    · exact quotient_settled _ _

theorem floorDiv_settled {a : Number} (ha : a.FitsCell) (b : Number) :
    Returns IsSettled (floorDiv a b) := by
  unfold floorDiv floorQuotient
  split
  · exact .error _
  · apply lift_settled
    intro i j hi _
    subst hi
    exact not_justBelowCells (cellMin_le_fdiv ha)

theorem floorMod_settled {a b : Number} (ha : a.FitsCell) (hb : b.FitsCell) :
    Returns IsSettled (floorMod a b) := by
  unfold floorMod remainder
  split
  · exact .error _
  · apply lift_settled
    intro i j hi hj
    subst hi hj
    exact not_justBelowCells (cellMin_le_fmod ha.1 hb.1)

theorem pow_settled (a b : Number) : Returns IsSettled (pow a b) := by
  cases a with
  | double x =>
      unfold pow
      split
      · exact .error _
      · apply Returns.bind
        intro approximate _
        exact .ok trivial
  | integer i =>
      cases b with
      | double y =>
          unfold pow
          split
          · exact .error _
          · apply Returns.bind
            intro approximate _
            exact .ok trivial
      | integer j =>
          intro n hn
          cases n with
          | integer k => exact not_justBelowCells (pow_integer_within hn).1
          | double z => trivial

theorem neg_settled {a : Number} (ha : a.FitsCell) : a.neg.IsSettled := by
  cases a with
  | integer i =>
      refine not_justBelowCells ?_
      have := ha.2
      rw [cellMin, cellMax] at *
      omega
  | double x => trivial

theorem function_settled (f : Binary64 → Binary64) (a : Number) :
    Returns IsSettled (function f a) := by
  apply Returns.bind
  intro x _
  apply Returns.bind
  intro y _
  exact .ok trivial

end Number

/-! ### Rules -/

/-- The operators that compute exactly on integers, whatever the size of the result. -/
def Operator.exact? : Operator → Option (Int → Int → Int)
  | add => some (· + ·)
  | sub => some (· - ·)
  | mul => some (· * ·)
  | _ => none

/-- What an operator computes exactly from its operands, whatever the size of the result. -/
def exactResult? (op : Operator) : List Token → Option Int
  | [.integer a, .integer b] => op.exact?.map fun exact => exact a.value b.value
  | _ => none

theorem exactResult?_eq_none {op : Operator} (h : op.exact? = none) (operands : List Token) :
    exactResult? op operands = none := by
  unfold exactResult?
  split
  · rw [h]
    rfl
  · rfl

theorem Operator.rule_of_exact? {op : Operator} {exact : Int → Int → Int}
    (h : op.exact? = some exact) :
    ∃ rounded, op.rule = .arithmetic (Number.lift exact rounded) := by
  cases op with
  | add | sub | mul =>
      obtain rfl := Option.some.inj h
      exact ⟨_, rfl⟩
  | _ => cases h

theorem Operator.exact?_of_rule {op : Operator} (h : ¬ op.rule.IsNumeric) : op.exact? = none := by
  cases hexact : op.exact? with
  | none => rfl
  | some exact =>
      obtain ⟨rounded, hrule⟩ := rule_of_exact? hexact
      rw [hrule] at h
      exact absurd trivial h

/-- Two integers are computed with exactly, and the result becomes a token. -/
theorem evaluate_exact {op : Operator} {exact : Int → Int → Int} (h : op.exact? = some exact)
    (a b : Cell) :
    evaluate op [.integer a, .integer b] =
      (Token.ofInt (exact a.value b.value)).mapError (Failure.reported op) := by
  cases op with
  | add | sub | mul =>
      obtain rfl := Option.some.inj h
      rfl
  | _ => cases h

/-- From operands that fit a cell a rule computes a number that is settled. -/
def Rule.IsSettled : Rule → Prop
  | arithmetic f => ∀ a b : Number, a.FitsCell → b.FitsCell → Returns Number.IsSettled (f a b)
  | function f => ∀ a : Number, a.FitsCell → Returns Number.IsSettled (f a)
  | _ => True

theorem Operator.rule_settled {op : Operator} (h : op.exact? = none) : op.rule.IsSettled := by
  cases op with
  | add | sub | mul => cases h
  | div => exact fun a b ha _ => Number.div_settled ha b
  | eucDiv => exact fun a b ha _ => Number.floorDiv_settled ha b
  | mod => exact fun a b ha hb => Number.floorMod_settled ha hb
  | pow => exact fun a b _ _ => Number.pow_settled a b
  | neg => exact fun a ha => .ok (Number.neg_settled ha)
  | sin | cos | tan | arcsin | arccos | arctan | sqrt | exp | ln =>
      exact fun a _ => Number.function_settled _ a
  | _ => trivial

/-! ### Results -/

/-- The number that any other operator computes is settled. -/
theorem Computes.settled {op : Operator} (hexact : op.exact? = none) {operands : List Token}
    {n : Number} (h : Computes op operands n) : n.IsSettled := by
  have hsettled := Operator.rule_settled hexact
  unfold Computes at h
  cases hrule : op.rule with
  | arithmetic f =>
      rw [hrule] at h hsettled
      obtain ⟨a, b, hoperands, hn⟩ := h
      obtain ⟨s, u, -, ha, hb⟩ := unpackTwo_eq_ok hoperands
      have hreturns := hsettled a b (Token.fitsCell_of_operand ha) (Token.fitsCell_of_operand hb)
      exact hreturns n hn
  | function f =>
      rw [hrule] at h hsettled
      obtain ⟨a, hoperand, hn⟩ := h
      obtain ⟨s, -, ha⟩ := unpackOne_eq_ok hoperand
      have hreturns := hsettled a (Token.fitsCell_of_operand ha)
      exact hreturns n hn
  | _ =>
      rw [hrule] at h
      cases h

/-- Operators that compute exactly take numbers only. -/
theorem Operator.number_of_accepts {op : Operator} {exact : Int → Int → Int}
    (hexact : op.exact? = some exact) {s : Token} (h : op.accepts s) :
    (∃ cell, s = .integer cell) ∨ ∃ x, s = .float x := by
  cases s with
  | integer cell => exact .inl ⟨cell, rfl⟩
  | float x => exact .inr ⟨x, rfl⟩
  | boolean b =>
      cases op with
      | add | sub | mul => cases h
      | _ => cases hexact
  | _ => simp [accepts, Token.isNumeric, Token.isBoolean, Token.kind] at h

/-- Two integers are computed with exactly, anything else as doubles. -/
theorem isSettled_lift {op : Operator} {exact : Int → Int → Int} (hexact : op.exact? = some exact)
    {rounded : Binary64 → Binary64 → Binary64} {s u : Token} (hs : op.accepts s)
    (hu : op.accepts u) {a b n : Number} (ha : s.operand = .ok a) (hb : u.operand = .ok b)
    (h : Number.lift exact rounded a b = .ok n) :
    n.IsSettled ↔ ¬ ∃ i, exactResult? op [s, u] = some i ∧ JustBelowCells i := by
  rcases Operator.number_of_accepts hexact hs with ⟨c, rfl⟩ | ⟨x, rfl⟩
  · rcases Operator.number_of_accepts hexact hu with ⟨d, rfl⟩ | ⟨y, rfl⟩
    · obtain rfl := Except.ok.inj ha
      obtain rfl := Except.ok.inj hb
      obtain rfl := Except.ok.inj h
      simp only [exactResult?, hexact, Option.map_some, Option.some.injEq, exists_eq_left']
      exact Iff.rfl
    · obtain rfl := Except.ok.inj hb
      refine iff_of_true (Number.lift_settled rounded ?_ n h) (by simp [exactResult?])
      intro i j _ hj
      cases hj
  · obtain rfl := Except.ok.inj ha
    refine iff_of_true (Number.lift_settled rounded ?_ n h) (by simp [exactResult?])
    intro i j hi
    cases hi

theorem Computes.isSettled_iff {op : Operator} {operands : List Token} {n : Number}
    (hkinds : ∀ s ∈ operands, op.accepts s) (h : Computes op operands n) :
    n.IsSettled ↔ ¬ ∃ i, exactResult? op operands = some i ∧ JustBelowCells i := by
  cases hexact : op.exact? with
  | none =>
      refine iff_of_true (h.settled hexact) ?_
      rintro ⟨i, hi, -⟩
      rw [exactResult?_eq_none hexact] at hi
      cases hi
  | some exact =>
      obtain ⟨rounded, hrule⟩ := Operator.rule_of_exact? hexact
      rw [Computes, hrule] at h
      obtain ⟨a, b, hoperands, hn⟩ := h
      obtain ⟨s, u, rfl, ha, hb⟩ := unpackTwo_eq_ok hoperands
      exact isSettled_lift hexact (hkinds s (by simp)) (hkinds u (by simp)) ha hb hn

/-- **The result of an operator is canonical unless it is an exact one just below the cells.** -/
theorem isCanonical_evaluate {op : Operator} {operands : List Token} {t : Token}
    (h : evaluate op operands = .ok t) :
    t.IsCanonical ↔ ¬ ∃ i, exactResult? op operands = some i ∧ JustBelowCells i := by
  obtain ⟨-, hkinds, ⟨hrule, b, rfl⟩ | ⟨n, hn, ht⟩⟩ := evaluate_cases h
  · rw [exactResult?_eq_none (Operator.exact?_of_rule hrule)]
    exact iff_of_true trivial (by simp)
  · rw [Token.isCanonical_ofNumber ht]
    exact hn.isSettled_iff hkinds

end ReversePolish
