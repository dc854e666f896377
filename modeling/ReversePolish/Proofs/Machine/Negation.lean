import Mathlib.Data.EReal.Operations
import ReversePolish.Proofs.Evaluation.Division
import ReversePolish.Proofs.Evaluation.Power
import ReversePolish.Proofs.Machine.Calls
import ReversePolish.Proofs.Machine.Steps
import ReversePolish.Proofs.Token.Doubles

/-! # Negation

`NEG` takes the value of a number to its negative, exactly, and its result is canonical
(`evaluate_neg`).  A canonical token is told by its value, so negating it twice gives it back
(`evaluate_neg_neg`), also where its kind changes on the way: the least integer becomes the double
`2^63`, which no cell could hold, and that double becomes the least integer again.  On a machine
the token that is negated twice lies where it lay, on the same tokens (`neg_involution`). -/

namespace ReversePolish

variable {t u : Token} {v : EReal} {i : Int}

/-! ### Values of negatives -/

namespace Binary64

theorem signed_not (negative : Bool) (n : Nat) : signed (!negative) n = -signed negative n := by
  cases negative with
  | true => exact (Int.neg_neg _).symm
  | false => rfl

theorem inUnits_neg (i : Int) : inUnits (-i) = -inUnits i := by
  rw [inUnits, inUnits, Int.cast_neg, neg_div]

theorem value?_neg {x : Binary64} (h : x.value? = some v) : x.neg.value? = some (-v) := by
  cases x with
  | finite negative units fits =>
      obtain rfl := Option.some.inj h
      rw [neg, value?, signed_not, inUnits_neg, EReal.coe_neg]
  | infinite negative =>
      obtain rfl := Option.some.inj h
      cases negative with
      | true => exact congrArg some EReal.neg_bot.symm
      | false => exact congrArg some EReal.neg_top.symm
  | nan => cases h

end Binary64

theorem Number.value?_neg {a : Number} (h : a.value? = some v) : a.neg.value? = some (-v) := by
  cases a with
  | integer i =>
      obtain rfl := Option.some.inj h
      rw [neg, value?, Int.cast_neg, EReal.coe_neg]
  | double x => exact Binary64.value?_neg h

/-! ### Values of the tokens of numbers -/

namespace Token

/-- The token of an integer has its value, if a cell can hold it or a double is equal to it. -/
theorem value?_ofInt (hi : (cellMin ≤ i ∧ i ≤ cellMax) ∨ ∃ x : Binary64, x.toInt? = some i)
    (h : ofInt i = .ok t) : t.value? = some ((i : ℝ) : EReal) := by
  by_cases hfits : cellMin ≤ i ∧ i ≤ cellMax
  · rw [ofInt_of_fits hfits] at h
    cases h
    rfl
  · obtain ⟨x, hx⟩ := hi.resolve_left hfits
    have hzero : i ≠ 0 := by
      rintro rfl
      exact hfits (by decide)
    have hdouble : Binary64.ofInt i = x := Binary64.ofInt_of_toInt? hx hzero
    rw [ofInt_of_not_fits hfits (hdouble ▸ Binary64.isFinite_of_toInt? hx), hdouble] at h
    cases h
    exact Binary64.value?_eq_int_iff.2 hx

/-- The negative of a cell has a token with its value: all but one of them fit, and `2^63` is a
double. -/
theorem ofInt_neg_cell (c : Cell) :
    ∃ u, ofInt (-c.value) = .ok u ∧ u.value? = some (((-c.value : Int) : ℝ) : EReal) := by
  have hmin := c.min_le
  have hmax := c.le_max
  have hfinite : (Binary64.ofInt (-c.value)).isFinite := by
    refine Binary64.isFinite_ofInt_of_le ?_
    have := c.natAbs_le
    omega
  have hrange : (cellMin ≤ -c.value ∧ -c.value ≤ cellMax) ∨
      ∃ x : Binary64, x.toInt? = some (-c.value) := by
    rw [cellMin] at hmin ⊢
    rw [cellMax] at hmax ⊢
    by_cases hleast : c.value = -9223372036854775808
    · rw [hleast]
      exact .inr ⟨_, toInt?_ofInt_past_cells⟩
    · exact .inl (by omega)
  exact ⟨_, ofInt_eq_nearest hfinite, value?_ofInt hrange (ofInt_eq_nearest hfinite)⟩

end Token

/-! ### Negating -/

/-- **`NEG` is exact**, and its result is canonical. -/
theorem evaluate_neg (h : t.value? = some v) :
    ∃ u, evaluate .neg [t] = .ok u ∧ u.IsCanonical ∧ u.value? = some (-v) := by
  obtain ⟨a, ha, hv⟩ := Token.exists_number h
  have hrule : Operator.neg.rule = .function fun a => .ok a.neg := rfl
  obtain ⟨u, hu, hvalue⟩ : ∃ u, Token.ofNumber a.neg = .ok u ∧ u.value? = a.neg.value? := by
    cases t with
    | integer c =>
        obtain rfl := Option.some.inj ha
        exact Token.ofInt_neg_cell c
    | float x =>
        obtain rfl := Option.some.inj ha
        obtain ⟨u, hu, -⟩ := Token.ofDouble_canonical x.neg
        exact ⟨u, hu, Token.value?_ofDouble hu⟩
    | _ => cases ha
  have heval : evaluate .neg [t] = .ok u := by
    rw [evaluate_function hrule ha, Except.bind, hu]
    rfl
  refine ⟨u, heval, (isCanonical_evaluate heval).2 ?_, hvalue.trans (Number.value?_neg hv)⟩
  rw [exactResult?_eq_none rfl]
  simp

/-- **Negating a canonical token twice gives it back.** -/
theorem evaluate_neg_neg (hcanonical : t.IsCanonical) (h : t.value? = some v) :
    ∃ u, evaluate .neg [t] = .ok u ∧ u.IsCanonical ∧ u.value? = some (-v) ∧
      evaluate .neg [u] = .ok t := by
  obtain ⟨u, hu, hucanonical, huvalue⟩ := evaluate_neg h
  obtain ⟨t', ht', ht'canonical, ht'value⟩ := evaluate_neg huvalue
  rw [neg_neg] at ht'value
  obtain rfl := Token.eq_of_value_eq ht'value h ht'canonical hcanonical
  exact ⟨u, hu, hucanonical, huvalue, ht'⟩

theorem evaluate_neg_integer (c : Cell) :
    evaluate .neg [.integer c] = (Token.ofInt (-c.value)).mapError (Failure.reported .neg) := rfl

/-- The negative of the least integer is past the cells. -/
theorem evaluate_neg_least :
    evaluate .neg [.integer .least] = .ok (.float (.ofInt 9223372036854775808)) := by
  have hvalue : -Cell.least.value = 9223372036854775808 := by decide
  have hfinite := Binary64.isFinite_of_toInt? toInt?_ofInt_past_cells
  rw [evaluate_neg_integer, hvalue, Token.ofInt_of_not_fits (by decide) hfinite]
  rfl

namespace Machine

variable {m : Machine} {rest : List Token}

/-- `NEG` puts the negative in the place of the topmost token. -/
theorem next_neg (hstack : m.stack = t :: rest) (hroom : (m.size : Int) < m.capacity)
    (h : evaluate .neg [t] = .ok u) :
    m.next (.operator .neg) =
      .ok { m with stack := u :: rest, lastOperator := some .neg, lastOperands := some [t] } := by
  have hoperands : m.operands Operator.neg.arity = [t] := by
    simp [operands, hstack, Operator.arity]
  have hfound : Operator.neg.arity ≤ m.size := by simp [size, hstack, Operator.arity]
  have hruns := Runs.pure (by decide) hfound (hoperands ▸ h)
  rw [hoperands, hstack] at hruns
  exact next_of_runs (invokes_self (by decide)) hroom hruns

theorem run_neg_neg (hstack : m.stack = t :: rest) (hroom : (m.size : Int) < m.capacity)
    (h : evaluate .neg [t] = .ok u) (h' : evaluate .neg [u] = .ok t) :
    (pushAll [.operator .neg, .operator .neg]).run m =
      .ok () { m with lastOperator := some .neg, lastOperands := some [u] } := by
  let negated : Machine :=
    { m with stack := u :: rest, lastOperator := some .neg, lastOperands := some [t] }
  have hroom' : (negated.size : Int) < negated.capacity := by
    simpa [negated, size, hstack] using hroom
  have hback := next_neg (m := negated) rfl hroom' h'
  rw [run_pushAll_pair (next_neg hstack hroom h) hback, ← hstack]

end Machine

/-- **Negation is an involution of canonical numbers.**  The negative of any number but a NaN is
canonical and has exactly the negative value, and negating it gives the number back; the least
integer of a cell and the double `2^63` are each the negative of the other.  Where there is room on
a machine, `NEG` pushed twice leaves the stack as it was. -/
theorem neg_involution :
    (∀ t : Token, t.isNumeric → t ≠ .float .nan → t.IsCanonical →
      ∃ (u : Token) (v : EReal), t.value? = some v ∧ evaluate .neg [t] = .ok u ∧ u.IsCanonical ∧
        u.value? = some (-v) ∧ evaluate .neg [u] = .ok t ∧
        ∀ (m : Machine) (rest : List Token), m.stack = t :: rest → (m.size : Int) < m.capacity →
          (Machine.pushAll [.operator .neg, .operator .neg]).run m =
            .ok () { m with lastOperator := some .neg, lastOperands := some [u] }) ∧
      (Binary64.ofInt 9223372036854775808).toInt? = some 9223372036854775808 ∧
      evaluate .neg [.integer .least] = .ok (.float (.ofInt 9223372036854775808)) ∧
      evaluate .neg [.float (.ofInt 9223372036854775808)] = .ok (.integer .least) := by
  refine ⟨fun t hnumeric hnan hcanonical => ?_, toInt?_ofInt_past_cells,
    evaluate_neg_least, ?_⟩
  · obtain ⟨v, hv⟩ := Token.exists_value hnumeric hnan
    obtain ⟨u, hu, hucanonical, huvalue, ht⟩ := evaluate_neg_neg hcanonical hv
    exact ⟨u, v, hv, hu, hucanonical, huvalue, ht,
      fun m rest hstack hroom => Machine.run_neg_neg hstack hroom hu ht⟩
  · obtain ⟨u, hu, -, -, hleast⟩ :=
      evaluate_neg_neg (t := .integer .least) trivial (Token.value?_integer _)
    rwa [← Except.ok.inj (evaluate_neg_least.symm.trans hu)] at hleast

/-- The least integer on a truth value, with room for one token more; and an infinity. -/
theorem neg_involution_least :
    let m : Machine := { capacity := 3, stack := [.integer .least, .boolean true] }
    let past : Token := .float (.ofInt 9223372036854775808)
    (Machine.pushAll [.operator .neg, .operator .neg]).run m =
        .ok () { m with lastOperator := some .neg, lastOperands := some [past] } ∧
      evaluate .neg [.float (.infinite true)] = .ok (.float (.infinite false)) ∧
      evaluate .neg [.float (.infinite false)] = .ok (.float (.infinite true)) := by
  intro m past
  obtain ⟨hneg, -, hleast, -⟩ := neg_involution
  obtain ⟨u, -, -, hu, -, -, -, hmachine⟩ := hneg (.integer .least) rfl nofun trivial
  obtain rfl : past = u := Except.ok.inj (hleast.symm.trans hu)
  obtain ⟨v, -, -, hv, -, -, hback, -⟩ := hneg (.float (.infinite true)) rfl nofun nofun
  have hinfinite : evaluate .neg [.float (.infinite true)] = .ok (.float (.infinite false)) := rfl
  obtain rfl := Except.ok.inj (hinfinite.symm.trans hv)
  exact ⟨hmachine m _ rfl (by decide), hinfinite, hback⟩

end ReversePolish
