import ReversePolish.Proofs.Evaluation.Division
import ReversePolish.Proofs.Evaluation.Truth

/-! # What becomes of operands that are admitted

An operator has no result for two causes in the values of its operands: a division by zero
(`DividesByZero`) and a place where it has no value (`LeavesDomain`).  It reports each where it is,
the first before the second, and everywhere else it gives a token (`Accounted`).  That is shown for
one family of rules after the other, and holds of every operator that does not work on the stack
itself (`accounted`). -/

namespace ReversePolish

open Binary64 (PowerUndefined)
open Number (HasToken IsUndefined)

variable {op : Operator} {s u : Token} {a b : Number} {x y : Binary64} {operands : List Token}

/-! ### Causes -/

/-- The kinds of operands that an operator takes. -/
def Operator.Admits (op : Operator) (t : Token) : Prop :=
  t.kind = .integer ∨ t.kind = .float ∨ op ∈ [.eq, .neq, .and, .or, .not] ∧ t.kind = .boolean

/-- A quotient by zero, or a negative power of zero. -/
def DividesByZero (op : Operator) : List Token → Prop
  | [s, u] => op.IsDivision ∧ u.value? = some 0 ∨
      op = .pow ∧ s.value? = some 0 ∧ ∃ v, u.value? = some v ∧ v < 0
  | _ => False

/-- The value of a number taken as a double. -/
noncomputable def Token.doubleValue? (t : Token) : Option EReal :=
  t.toDouble.toOption.bind Binary64.value?

/-- A function of a value at which it has none, or a power of doubles that is undefined. -/
def LeavesDomain (op : Operator) : List Token → Prop
  | [s] => ∃ v, s.value? = some v ∧ op.HasNoValueAt v
  | [s, u] => op = .pow ∧ ∃ p q : ℝ, s.doubleValue? = some (p : EReal) ∧
      u.doubleValue? = some (q : EReal) ∧ PowerUndefined p q
  | _ => False

/-- The operators that have a result for all operands that they take. -/
def Operator.IsTotal (op : Operator) : Prop :=
  op ∈ [.add, .sub, .mul, .neg, .arctan, .eq, .neq, .le, .lt, .ge, .gt, .and, .or, .not]

instance (op : Operator) : Decidable op.IsTotal := inferInstanceAs (Decidable (_ ∈ _))

/-- An operator does what its operands are accounted for with. -/
structure Accounted (op : Operator) (operands : List Token) : Prop where
  byZero : DividesByZero op operands → evaluate op operands = .error (.fault .divisionByZero)
  outside : ¬ DividesByZero op operands → LeavesDomain op operands →
    evaluate op operands = .error (.fault (.undefined op))
  inside : ¬ DividesByZero op operands → ¬ LeavesDomain op operands →
    ∃ t, evaluate op operands = .ok t

/-- Not both integers: arithmetic takes the numbers as doubles. -/
def Number.Mixed (a b : Number) : Prop := ∀ i j, a = integer i → b ≠ integer j

/-! ### Operands -/

namespace Operator

theorem accepts_iff_admits {t : Token} : op.accepts t ↔ op.Admits t := by
  have htruth : op.takesTruth ↔ op ∈ [.eq, .neq, .and, .or, .not] := by cases op <;> decide
  rw [accepts, Bool.or_eq_true, Bool.and_eq_true, htruth, Admits, Token.isNumeric,
    Token.isBoolean, Bool.or_eq_true, beq_iff_eq, beq_iff_eq, beq_iff_eq, or_assoc]

/-- An operator that does not take truth values takes numbers only. -/
theorem exists_number (hop : op.takesTruth = false) {t : Token} (h : op.accepts t) :
    ∃ a, t.number? = some a := by
  rw [accepts, hop, Bool.false_and, Bool.or_false] at h
  exact Token.isNumeric_iff_number.1 h

end Operator

namespace Token

theorem fitsCell_of_number (h : s.number? = some a) : a.FitsCell :=
  fitsCell_of_quantity (quantity_of_number h)

theorem value?_of_number (h : s.number? = some a) : s.value? = a.value? := by
  rw [value?, h, Option.bind_some]

theorem doubleValue?_of_number (h : s.number? = some a) (ha : a.asDouble = .ok x) :
    s.doubleValue? = x.value? := by
  rw [doubleValue?, toDouble, quantity_of_number h]
  dsimp only
  rw [ha]
  rfl

theorem integers_or_mixed (hs : s.number? = some a) (hu : u.number? = some b) :
    (∃ c d, s = integer c ∧ u = integer d) ∨ a.Mixed b := by
  cases s with
  | integer c =>
      cases u with
      | integer d => exact .inl ⟨c, d, rfl, rfl⟩
      | float y =>
          obtain rfl := Option.some.inj hu
          exact .inr nofun
      | _ => cases hu
  | float x =>
      obtain rfl := Option.some.inj hs
      exact .inr nofun
  | _ => cases hs

end Token

/-! ### From numbers to tokens -/

theorem exists_token {r : Except Failure Number} {n : Number} (hr : r = .ok n) (hn : n.HasToken)
    (op : Operator) : ∃ t, (r.bind Token.ofNumber).mapError (Failure.reported op) = .ok t := by
  obtain ⟨t, ht⟩ := hn
  refine ⟨t, ?_⟩
  rw [hr, Except.bind, ht]
  rfl

theorem reported_undefined {r : Except Failure Number} (h : IsUndefined r) (op : Operator) :
    (r.bind Token.ofNumber).mapError (Failure.reported op) = .error (.fault (.undefined op)) := by
  rcases h with rfl | rfl <;> rfl

/-! ### Operators that are total -/

theorem Operator.IsTotal.spec (h : op.IsTotal) :
    ¬ op.IsDivision ∧ op ≠ .pow ∧ ∀ v, ¬ op.HasNoValueAt v := by
  cases op with
  | add | sub | mul | neg | arctan | eq | neq | le | lt | ge | gt | and | or | not =>
      exact ⟨by decide, by decide, fun _ => id⟩
  | _ => exact absurd h (by simp [IsTotal])

theorem Operator.IsTotal.not_structural (h : op.IsTotal) : ¬ op.isStructural := by
  have hall : ∀ op : Operator, op ∈ Operator.all → op.IsTotal → ¬ op.isStructural := by decide
  exact hall op op.mem_all h

theorem Operator.IsTotal.not_dividesByZero (h : op.IsTotal) : ¬ DividesByZero op operands := by
  unfold DividesByZero
  split
  · rintro (⟨hop, -⟩ | ⟨hop, -⟩)
    · exact h.spec.1 hop
    · exact h.spec.2.1 hop
  · exact id

theorem Operator.IsTotal.not_leavesDomain (h : op.IsTotal) : ¬ LeavesDomain op operands := by
  unfold LeavesDomain
  split
  · rintro ⟨v, -, hv⟩
    exact h.spec.2.2 v hv
  · rintro ⟨hop, -⟩
    exact h.spec.2.1 hop
  · exact id

theorem Operator.IsTotal.accounted (h : op.IsTotal) (hok : ∃ t, evaluate op operands = .ok t) :
    Accounted op operands where
  byZero hzero := absurd hzero h.not_dividesByZero
  outside _ hdomain := absurd hdomain h.not_leavesDomain
  inside _ _ := hok

theorem accounted_comparison {f : Number → Number → Bool} (hop : op.IsTotal)
    (hrule : op.rule = .comparison f) (hs : op.accepts s) (hu : op.accepts u) :
    Accounted op [s, u] := by
  obtain ⟨a, ha⟩ := Operator.exists_quantity hs
  obtain ⟨b, hb⟩ := Operator.exists_quantity hu
  exact hop.accounted ⟨_, evaluate_comparison hrule hs hu ha hb⟩

theorem accounted_connective {f : Bool → Bool → Bool} (hop : op.IsTotal)
    (hrule : op.rule = .connective f) (hs : op.accepts s) (hu : op.accepts u) :
    Accounted op [s, u] :=
  hop.accounted ⟨_, evaluate_connective hrule hs hu (Operator.truth_eq_of_accepts hs)
    (Operator.truth_eq_of_accepts hu)⟩

theorem accounted_negation (hs : Operator.not.accepts s) : Accounted .not [s] :=
  Operator.IsTotal.accounted (by decide)
    ⟨_, evaluate_negation rfl hs (Operator.truth_eq_of_accepts hs)⟩

/-! ### Arithmetic -/

namespace Number

variable {exact : Int → Int → Int} {rounded : Binary64 → Binary64 → Binary64}

theorem lift_of_mixed (hmixed : a.Mixed b) (ha : a.asDouble = .ok x)
    (hb : b.asDouble = .ok y) : lift exact rounded a b = .ok (double (rounded x y)) := by
  have hlift : lift exact rounded a b =
      (do return double (rounded (← a.asDouble) (← b.asDouble))) := by
    cases a with
    | double z => rfl
    | integer i =>
        cases b with
        | double z => rfl
        | integer j => exact absurd rfl (hmixed i j rfl)
  rw [hlift, ha, hb]
  rfl

theorem div_of_mixed (hmixed : a.Mixed b) (ha : a.asDouble = .ok x)
    (hb : b.asDouble = .ok y) (hzero : ¬ b.isZero) : div a b = .ok (double (x.div y)) := by
  have hdiv : div a b = (do return double ((← a.asDouble).div (← b.asDouble))) := by
    cases a with
    | double z => simp only [div, quotient, if_neg hzero]
    | integer i =>
        cases b with
        | double z => simp only [div, quotient, if_neg hzero]
        | integer j => exact absurd rfl (hmixed i j rfl)
  rw [hdiv, ha, hb]
  rfl

end Number

theorem accounted_exact {exact : Int → Int → Int} (hop : op.IsTotal) (h : op.exact? = some exact)
    (hs : s.number? = some a) (hu : u.number? = some b) : Accounted op [s, u] := by
  refine hop.accounted ?_
  rcases Token.integers_or_mixed hs hu with ⟨c, d, rfl, rfl⟩ | hmixed
  · obtain ⟨t, ht, -⟩ := evaluate_exact_gives h c d
    exact ⟨t, ht⟩
  · obtain ⟨x, hx⟩ := Number.exists_double (Token.fitsCell_of_number hs)
    obtain ⟨y, hy⟩ := Number.exists_double (Token.fitsCell_of_number hu)
    obtain ⟨rounded, hrule⟩ := Operator.rule_of_exact? h
    rw [evaluate_arithmetic hrule hs hu]
    exact exists_token (Number.lift_of_mixed hmixed hx hy) (Number.hasToken_double _) op

theorem accounted_neg (hs : s.number? = some a) : Accounted .neg [s] := by
  refine Operator.IsTotal.accounted (by decide) ?_
  cases s with
  | integer c =>
      obtain ⟨t, ht, -⟩ := evaluate_neg_gives c
      exact ⟨t, ht⟩
  | float x =>
      have hevaluate : evaluate .neg [.float x] = _ := evaluate_function rfl rfl
      rw [hevaluate]
      exact exists_token rfl (Number.hasToken_double x.neg) .neg
  | _ => cases hs

/-- Integers that are divided by another than zero have a token. -/
theorem exists_division_integers (hop : op.IsDivision) (c : Cell) {d : Cell} (hd : d.value ≠ 0) :
    ∃ t, evaluate op [.integer c, .integer d] = .ok t := by
  rcases hop with rfl | rfl | rfl
  · by_cases hdvd : d.value ∣ c.value
    · obtain ⟨q, hq⟩ := hdvd
      obtain ⟨t, ht, -⟩ := evaluate_div_gives hd hq
      exact ⟨t, ht⟩
    · obtain ⟨-, t, -, -, ht⟩ := evaluate_div_nearest hd hdvd
      exact ⟨t, ht⟩
  · by_cases hfits : QuotientOverflows c d
    · exact ⟨_, evaluate_eucDiv_of_overflows hd hfits⟩
    · exact ⟨_, evaluate_eucDiv_of_fits hd hfits⟩
  · exact ⟨_, evaluate_mod_eq c hd⟩

theorem exists_division (hop : op.IsDivision) (hs : s.number? = some a) (hu : u.number? = some b)
    (hzero : ¬ b.isZero) : ∃ t, evaluate op [s, u] = .ok t := by
  rcases Token.integers_or_mixed hs hu with ⟨c, d, rfl, rfl⟩ | hmixed
  · obtain rfl := Option.some.inj hu
    exact exists_division_integers hop c (mt Number.isZero_integer.2 hzero)
  · obtain ⟨x, hx⟩ := Number.exists_double (Token.fitsCell_of_number hs)
    obtain ⟨y, hy⟩ := Number.exists_double (Token.fitsCell_of_number hu)
    rcases hop with rfl | rfl | rfl
    · rw [evaluate_arithmetic rfl hs hu]
      exact exists_token (Number.div_of_mixed hmixed hx hy hzero) (Number.hasToken_double _) _
    · rw [evaluate_arithmetic rfl hs hu, Number.floorDiv, if_neg hzero, Number.floorQuotient,
        if_neg hzero]
      exact exists_token (Number.lift_of_mixed hmixed hx hy) (Number.hasToken_double _) _
    · rw [evaluate_arithmetic rfl hs hu, Number.floorMod, if_neg hzero, Number.remainder,
        if_neg hzero]
      exact exists_token (Number.lift_of_mixed hmixed hx hy) (Number.hasToken_double _) _

theorem Operator.IsDivision.ne_pow (hop : op.IsDivision) : op ≠ .pow := by
  rcases hop with rfl | rfl | rfl <;> decide

theorem dividesByZero_iff (hop : op.IsDivision) (hu : u.number? = some b) :
    DividesByZero op [s, u] ↔ b.isZero := by
  rw [Number.isZero_iff_value, ← Token.value?_of_number hu]
  constructor
  · rintro (⟨-, hzero⟩ | ⟨hpow, -⟩)
    · exact hzero
    · exact absurd hpow hop.ne_pow
  · exact fun hzero => .inl ⟨hop, hzero⟩

theorem accounted_division (hop : op.IsDivision) (hs : s.number? = some a)
    (hu : u.number? = some b) : Accounted op [s, u] where
  byZero hzero := evaluate_by_zero hop hs hu ((dividesByZero_iff hop hu).1 hzero)
  outside _ hdomain := absurd hdomain.1 hop.ne_pow
  inside hzero _ := exists_division hop hs hu (mt (dividesByZero_iff hop hu).2 hzero)

/-! ### Functions and powers -/

theorem accounted_function {f : Binary64 → Binary64} (h : op.double? = some f)
    (hs : s.number? = some a) : Accounted op [s] := by
  obtain ⟨x, hx⟩ := Number.exists_double (Token.fitsCell_of_number hs)
  have hdomain : LeavesDomain op [s] ↔ Binary64.Undefined f x := by
    rw [LeavesDomain, Token.value?_of_number hs, Operator.undefined_double_iff h hx]
  have hevaluate := evaluate_function (Operator.rule_of_double? h) hs
  refine ⟨False.elim, fun _ hout => ?_, fun _ hin => ?_⟩
  · rw [hevaluate]
    exact reported_undefined (Number.function_of_undefined hx (hdomain.1 hout)) op
  · rw [hevaluate]
    exact exists_token (Number.function_of_defined hx (mt hdomain.2 hin))
      (Number.hasToken_double _) op

theorem dividesByZero_pow_iff (hs : s.number? = some a) (hu : u.number? = some b) :
    DividesByZero .pow [s, u] ↔ a.isZero && b.lt (.integer 0) := by
  rw [Bool.and_eq_true, Number.isZero_iff_value, Number.lt_zero_iff_value,
    ← Token.value?_of_number hs, ← Token.value?_of_number hu]
  constructor
  · rintro (⟨hop, -⟩ | ⟨-, hzero⟩)
    · exact absurd rfl hop.ne_pow
    · exact hzero
  · exact fun hzero => .inr ⟨rfl, hzero⟩

theorem accounted_pow (hs : s.number? = some a) (hu : u.number? = some b) :
    Accounted .pow [s, u] := by
  obtain ⟨x, hx⟩ := Number.exists_double (Token.fitsCell_of_number hs)
  obtain ⟨y, hy⟩ := Number.exists_double (Token.fitsCell_of_number hu)
  have hbyZero := dividesByZero_pow_iff hs hu
  have hevaluate : evaluate .pow [s, u] = _ := evaluate_arithmetic rfl hs hu
  refine ⟨fun hzero => ?_, fun hzero hout => ?_, fun hzero hin => ?_⟩
  · rw [hevaluate, Number.pow, if_pos (hbyZero.1 hzero)]
    rfl
  · obtain ⟨-, p, q, hp, hq, hundefined⟩ := hout
    rw [Token.doubleValue?_of_number hs hx] at hp
    rw [Token.doubleValue?_of_number hu hy] at hq
    have hpow := mt hbyZero.2 hzero
    rw [hevaluate]
    refine reported_undefined (Number.pow_of_undefined hpow ?_) .pow
    exact Number.power_of_undefined hx hy hp hq
      (Number.not_negative_power_of_zero hx hy hp hq hpow) hundefined
  · have hpow := mt hbyZero.2 hzero
    have hpower := Number.power_of_defined hx hy fun p q hp hq =>
      ⟨Number.not_negative_power_of_zero hx hy hp hq hpow, fun hundefined => hin ⟨rfl, p, q,
        (Token.doubleValue?_of_number hs hx).trans hp,
        (Token.doubleValue?_of_number hu hy).trans hq, hundefined⟩⟩
    obtain ⟨n, hn, htoken⟩ := Number.pow_of_defined hpow hpower
    rw [hevaluate]
    exact exists_token hn htoken .pow

/-! ### Every operator -/

theorem exists_two_numbers (hlength : operands.length = 2) (hop : op.takesTruth = false)
    (hkinds : ∀ t ∈ operands, op.accepts t) :
    ∃ s u a b, operands = [s, u] ∧ s.number? = some a ∧ u.number? = some b := by
  obtain ⟨s, u, rfl⟩ := List.length_eq_two.1 hlength
  obtain ⟨a, ha⟩ := Operator.exists_number hop (hkinds s (by simp))
  obtain ⟨b, hb⟩ := Operator.exists_number hop (hkinds u (by simp))
  exact ⟨s, u, a, b, rfl, ha, hb⟩

theorem exists_one_number (hlength : operands.length = 1) (hop : op.takesTruth = false)
    (hkinds : ∀ t ∈ operands, op.accepts t) : ∃ s a, operands = [s] ∧ s.number? = some a := by
  obtain ⟨s, rfl⟩ := List.length_eq_one_iff.1 hlength
  obtain ⟨a, ha⟩ := Operator.exists_number hop (hkinds s (by simp))
  exact ⟨s, a, rfl, ha⟩

/-- **Behind the checks of its operands every operator is accounted for**, unless it works on the
stack itself. -/
theorem accounted (hlength : operands.length = op.arity) (hkinds : ∀ t ∈ operands, op.accepts t)
    (hop : ¬ op.isStructural) : Accounted op operands := by
  cases op with
  | add | sub | mul =>
      obtain ⟨s, u, a, b, rfl, ha, hb⟩ := exists_two_numbers hlength rfl hkinds
      exact accounted_exact (by decide) rfl ha hb
  | div | eucDiv | mod =>
      obtain ⟨s, u, a, b, rfl, ha, hb⟩ := exists_two_numbers hlength rfl hkinds
      exact accounted_division (by decide) ha hb
  | pow =>
      obtain ⟨s, u, a, b, rfl, ha, hb⟩ := exists_two_numbers hlength rfl hkinds
      exact accounted_pow ha hb
  | neg =>
      obtain ⟨s, a, rfl, ha⟩ := exists_one_number hlength rfl hkinds
      exact accounted_neg ha
  | sin | cos | tan | arcsin | arccos | arctan | sqrt | exp | ln =>
      obtain ⟨s, a, rfl, ha⟩ := exists_one_number hlength rfl hkinds
      exact accounted_function rfl ha
  | eq | neq | le | lt | ge | gt =>
      obtain ⟨s, u, rfl⟩ := List.length_eq_two.1 hlength
      exact accounted_comparison (by decide) rfl (hkinds s (by simp)) (hkinds u (by simp))
  | and | or =>
      obtain ⟨s, u, rfl⟩ := List.length_eq_two.1 hlength
      exact accounted_connective (by decide) rfl (hkinds s (by simp)) (hkinds u (by simp))
  | not =>
      obtain ⟨s, rfl⟩ := List.length_eq_one_iff.1 hlength
      exact accounted_negation (hkinds s (by simp))
  | dup | drop | swap | lastop | lastargs | undo | redo | clear => exact absurd rfl hop

end ReversePolish
