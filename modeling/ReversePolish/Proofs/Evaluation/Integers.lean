import ReversePolish.Proofs.Evaluation.Canonical
import ReversePolish.Proofs.Token.Integers

/-! # Arithmetic on integers

Operands that are integers are computed with exactly, and the exact result is rounded once, if it
does not fit a cell (`mapError_ofInt_gives`).  None of the results is beyond the doubles: the
greatest is a product of at most `2^126`.  A quotient that does not come out even is rounded once
too, from the exact ratio of the integers. -/

namespace ReversePolish

attribute [local instance (high)] instPowNat

open Binary64 (IsNearest)

/-- A token comes out that stands for the integer, and no infinity. -/
def Gives (r : Except Failure Token) (i : Int) : Prop :=
  ∃ t, r = .ok t ∧ t.StandsFor i ∧ ∀ x, t = .float x → x.isFinite

namespace Cell

theorem natAbs_le (c : Cell) : c.value.natAbs ≤ 2 ^ (63 : Nat) := by
  have hmin := c.min_le
  have hmax := c.le_max
  rw [cellMin] at hmin
  rw [cellMax] at hmax
  omega

end Cell

/-- The token of an exact result. -/
theorem mapError_ofInt_gives {i : Int} (h : i.natAbs ≤ 2 ^ (126 : Nat)) (f : Failure → Failure) :
    Gives ((Token.ofInt i).mapError f) i := by
  have hfinite := Binary64.isFinite_ofInt_of_le h
  rw [Token.ofInt_eq_nearest hfinite]
  refine ⟨_, rfl, Token.standsFor_nearest i, fun x hx => ?_⟩
  by_cases hfits : cellMin ≤ i ∧ i ≤ cellMax
  · rw [Token.nearest_of_fits hfits] at hx
    cases hx
  · rw [Token.nearest_of_not_fits hfits] at hx
    rw [← Token.float.inj hx]
    exact hfinite

/-- The exact integer operations do not leave the doubles. -/
theorem natAbs_exact_le {op : Operator} {exact : Int → Int → Int} (h : op.exact? = some exact)
    (a b : Cell) : (exact a.value b.value).natAbs ≤ 2 ^ (126 : Nat) := by
  have ha := a.natAbs_le
  have hb := b.natAbs_le
  cases op with
  | add =>
      obtain rfl := Option.some.inj h
      dsimp only
      omega
  | sub =>
      obtain rfl := Option.some.inj h
      dsimp only
      omega
  | mul =>
      obtain rfl := Option.some.inj h
      dsimp only
      rw [Int.natAbs_mul]
      exact Nat.le_trans (Nat.mul_le_mul ha hb) (by decide)
  | _ => cases h

theorem evaluate_exact_gives {op : Operator} {exact : Int → Int → Int}
    (h : op.exact? = some exact) (a b : Cell) :
    Gives (evaluate op [.integer a, .integer b]) (exact a.value b.value) := by
  rw [evaluate_exact h]
  exact mapError_ofInt_gives (natAbs_exact_le h a b) _

theorem evaluate_neg_gives (a : Cell) : Gives (evaluate .neg [.integer a]) (-a.value) := by
  have ha := a.natAbs_le
  exact mapError_ofInt_gives (i := -a.value) (by omega) (Failure.reported .neg)

/-! ### Quotients -/

theorem evaluate_div_of_ne_zero {b : Cell} (hb : b.value ≠ 0) (a : Cell) :
    evaluate .div [.integer a, .integer b] =
      ((if a.value.fmod b.value = 0 then .ok (.integer (a.value.fdiv b.value))
        else Number.ratio a.value b.value).bind Token.ofNumber).mapError
          (Failure.reported .div) := by
  have hzero : ¬ (Number.integer b.value).isZero := by simpa [Number.isZero] using hb
  have hdiv : Number.div (.integer a.value) (.integer b.value) =
      if a.value.fmod b.value = 0 then .ok (.integer (a.value.fdiv b.value))
      else Number.ratio a.value b.value := by
    simp only [Number.div, Number.quotient, if_neg hzero]
  rw [← hdiv]
  rfl

/-- A quotient that comes out even. -/
theorem evaluate_div_gives {a b : Cell} {q : Int} (hb : b.value ≠ 0) (h : a.value = b.value * q) :
    Gives (evaluate .div [.integer a, .integer b]) q := by
  have hrest : a.value.fmod b.value = 0 := by rw [h, Int.mul_fmod_right]
  have hquotient : a.value.fdiv b.value = q := by rw [h, Int.mul_fdiv_cancel_left _ hb]
  have hq : q.natAbs ≤ 2 ^ (126 : Nat) := by
    have ha := a.natAbs_le
    rw [h, Int.natAbs_mul] at ha
    have := Nat.le_mul_of_pos_left q.natAbs (Int.natAbs_pos.2 hb)
    omega
  rw [evaluate_div_of_ne_zero hb, if_pos hrest, hquotient]
  exact mapError_ofInt_gives hq _

namespace Binary64

/-- The sign of a quotient is that of its magnitude. -/
theorem signed_div (a b : Int) :
    (signed ((a < 0) != (b < 0)) a.natAbs : ℚ) / b.natAbs = a / b := by
  conv => rhs; rw [← signed_natAbs a, ← signed_natAbs b]
  cases decide (a < 0) <;> cases decide (b < 0) <;> simp [signed, div_neg, neg_div]

end Binary64

/-- The quotient of two cells, rounded once. -/
theorem ratio_nearest (a : Cell) {b : Cell} (hb : b.value ≠ 0) :
    ∃ x, Number.ratio a.value b.value = .ok (.double x) ∧ IsNearest (a.value / b.value) x := by
  have hfinite := Binary64.isFinite_ofRatio (Nat.le_trans a.natAbs_le (by decide))
    ((a.value < 0) != (b.value < 0)) b.value.natAbs
  have hnearest := Binary64.isNearest_ofRatio ((a.value < 0) != (b.value < 0)) a.value.natAbs
    (Int.natAbs_pos.2 hb)
  rw [Binary64.signed_div] at hnearest
  refine ⟨_, ?_, hnearest⟩
  rw [Number.ratio, if_pos hfinite]

/-- A quotient that does not. -/
theorem evaluate_div_nearest {a b : Cell} (hb : b.value ≠ 0) (h : ¬ b.value ∣ a.value) :
    ∃ x t, IsNearest (a.value / b.value) x ∧ Token.ofDouble x = .ok t ∧
      evaluate .div [.integer a, .integer b] = .ok t := by
  have hrest : ¬ a.value.fmod b.value = 0 := mt Int.dvd_of_fmod_eq_zero h
  obtain ⟨x, hratio, hnearest⟩ := ratio_nearest a hb
  obtain ⟨t, ht, -⟩ := Token.ofDouble_canonical x
  refine ⟨x, t, hnearest, ht, ?_⟩
  rw [evaluate_div_of_ne_zero hb, if_neg hrest, hratio, Except.bind, Token.ofNumber, ht]
  rfl

/-- **Integers are computed with exactly, and the result is rounded once at most.** -/
theorem evaluate_integers (a b : Cell) :
    Gives (evaluate .add [.integer a, .integer b]) (a.value + b.value) ∧
      Gives (evaluate .sub [.integer a, .integer b]) (a.value - b.value) ∧
      Gives (evaluate .mul [.integer a, .integer b]) (a.value * b.value) ∧
      Gives (evaluate .neg [.integer a]) (-a.value) ∧
      (b.value ≠ 0 → b.value ∣ a.value →
        Gives (evaluate .div [.integer a, .integer b]) (a.value / b.value)) ∧
      (b.value ≠ 0 → ¬ b.value ∣ a.value →
        ∃ x t, IsNearest (a.value / b.value) x ∧ Token.ofDouble x = .ok t ∧
          evaluate .div [.integer a, .integer b] = .ok t) := by
  refine ⟨evaluate_exact_gives rfl a b, evaluate_exact_gives rfl a b,
    evaluate_exact_gives rfl a b, evaluate_neg_gives a, fun hb hdvd => ?_, evaluate_div_nearest⟩
  exact evaluate_div_gives hb (Int.mul_ediv_cancel' hdvd).symm

/-- The least integer divided by minus one leaves the cells; one divided by three is no integer. -/
theorem evaluate_integers_least :
    Gives (evaluate .div [.integer ⟨cellMin, by decide, by decide⟩,
        .integer ⟨-1, by decide, by decide⟩]) 9223372036854775808 ∧
      ∃ x t, IsNearest (((1 : Int) : ℚ) / ((3 : Int) : ℚ)) x ∧ Token.ofDouble x = .ok t ∧
        evaluate .div [.integer ⟨1, by decide, by decide⟩,
          .integer ⟨3, by decide, by decide⟩] = .ok t := by
  obtain ⟨-, -, -, -, heven, -⟩ := evaluate_integers ⟨cellMin, by decide, by decide⟩
    ⟨-1, by decide, by decide⟩
  obtain ⟨-, -, -, -, -, hrounded⟩ := evaluate_integers ⟨1, by decide, by decide⟩
    ⟨3, by decide, by decide⟩
  exact ⟨heven (by decide) (by decide), hrounded (by decide) (by decide)⟩

end ReversePolish
