import ReversePolish.Proofs.Evaluation.Comparison
import ReversePolish.Proofs.Token.Integers

/-! # Tokens of doubles

`ofDouble` gives every double a token, `ofIntegral` only the doubles without a fractional part.
The two ask for the range of the cells on different sides of a conversion: `ofDouble` compares the
double with the ends of the cells, and `ofIntegral` converts it to an integer, compares that, and
converts back what does not fit.  Both conversions are exact for a double that has an integer
value, so both constructors give the one token that denotes this integer (`constructors_agree`). -/

namespace ReversePolish

namespace Token

variable {x : Binary64} {i : Int} {t : Token}

/-- The token of a double has its value. -/
theorem value?_ofDouble (h : ofDouble x = .ok t) : t.value? = x.value? := by
  by_cases hintegral : x.isIntegral
  · obtain ⟨i, hi⟩ := Binary64.isIntegral_iff.1 hintegral
    by_cases hfits : cellMin ≤ i ∧ i ≤ cellMax
    · rw [ofDouble_of_fits hi hfits] at h
      cases h
      exact (Binary64.value?_eq_int_iff.2 hi).symm
    · rw [ofDouble_of_not_fits hi hfits] at h
      cases h
      rfl
  · rw [ofDouble, if_neg (by simp [hintegral])] at h
    cases h
    rfl

/-- The token has exactly the value of an integer, and its kind tells whether the integer is in the
range of 64 bits. -/
structure Denotes (i : Int) (t : Token) : Prop where
  value : t.value? = some ((i : ℝ) : EReal)
  integer : t.kind = .integer ↔ -2 ^ 63 ≤ i ∧ i < 2 ^ 63
  float : t.kind = .float ↔ ¬ (-2 ^ 63 ≤ i ∧ i < 2 ^ 63)

theorem fits_iff_two_pow : cellMin ≤ i ∧ i ≤ cellMax ↔ -2 ^ 63 ≤ i ∧ i < 2 ^ 63 := by
  rw [cellMin, cellMax]
  omega

theorem isFinite_ofInt_of_toInt? (h : x.toInt? = some i) : (Binary64.ofInt i).isFinite := by
  by_cases hzero : i = 0
  · rw [hzero]
    exact Binary64.isFinite_ofInt_of_le (Nat.zero_le _)
  · rw [Binary64.ofInt_of_toInt? h hzero]
    exact Binary64.isFinite_of_toInt? h

/-- The token that stands for the value of a double denotes it: nothing is rounded. -/
theorem denotes_nearest (h : x.toInt? = some i) : Denotes i (nearest i) := by
  have hvalue : (nearest i).value? = some ((i : ℝ) : EReal) := by
    rw [value?_ofDouble (ofDouble_of_toInt? h)]
    exact Binary64.value?_eq_int_iff.2 h
  by_cases hfits : cellMin ≤ i ∧ i ≤ cellMax
  · rw [nearest_of_fits hfits] at hvalue ⊢
    rw [fits_iff_two_pow] at hfits
    exact ⟨hvalue, iff_of_true rfl hfits, iff_of_false nofun (not_not.2 hfits)⟩
  · rw [nearest_of_not_fits hfits] at hvalue ⊢
    rw [fits_iff_two_pow] at hfits
    exact ⟨hvalue, iff_of_false nofun hfits, iff_of_true rfl hfits⟩

/-- An integral double has the same token by both constructors. -/
theorem ofIntegral_eq_nearest (h : x.toInt? = some i) : ofIntegral x = .ok (nearest i) := by
  rw [ofIntegral_of_toInt? h, ofInt_eq_nearest (isFinite_ofInt_of_toInt? h)]

/-- Any other double is refused by one and kept as it is by the other. -/
theorem constructors_of_not_isIntegral (h : ¬ x.isIntegral) :
    ofIntegral x = .error (.fault (.notInteger x)) ∧ ofDouble x = .ok (float x) := by
  rw [ofIntegral, if_neg h, ofDouble, if_neg (by simp [h])]
  exact ⟨rfl, rfl⟩

/-- **The two constructors agree on doubles without a fractional part**, and their token has exactly
the value of the double.  Of any other double one makes no token, because it is of the wrong type,
and the other one that holds it.  Neither fails in another way. -/
theorem constructors_agree (x : Binary64) :
    (∀ i : Int, x.value? = some ((i : ℝ) : EReal) →
      ∃ t, ofIntegral x = .ok t ∧ ofDouble x = .ok t ∧ t.same t ∧ Denotes i t) ∧
    ((∀ i : Int, x.value? ≠ some ((i : ℝ) : EReal)) →
      ofIntegral x = .error (.fault (.notInteger x)) ∧
        (Fault.notInteger x).category = .type ∧ ofDouble x = .ok (float x)) ∧
    FailsOnly (· = .fault (.notInteger x)) (ofIntegral x) ∧
    FailsOnly (fun _ => False) (ofDouble x) := by
  refine ⟨fun i hi => ?_, fun h => ?_, fun failure h => ?_, fun failure h => ?_⟩
  · have hx := Binary64.value?_eq_int_iff.1 hi
    obtain ⟨t, ht, hcanonical⟩ := ofDouble_canonical x
    obtain rfl : nearest i = t := Except.ok.inj ((ofDouble_of_toInt? hx).symm.trans ht)
    have hdenotes := denotes_nearest hx
    exact ⟨_, ofIntegral_eq_nearest hx, ht,
      (same_iff hdenotes.value hdenotes.value hcanonical hcanonical).2 rfl, hdenotes⟩
  · have hfraction : ¬ x.isIntegral := by
      intro hintegral
      obtain ⟨i, hi⟩ := Binary64.isIntegral_iff.1 hintegral
      exact h i (Binary64.value?_eq_int_iff.2 hi)
    obtain ⟨hrefused, hkept⟩ := constructors_of_not_isIntegral hfraction
    exact ⟨hrefused, rfl, hkept⟩
  · by_cases hintegral : x.isIntegral
    · obtain ⟨t, ht, -⟩ := ofIntegral_canonical hintegral
      cases ht.symm.trans h
    · rw [(constructors_of_not_isIntegral hintegral).1] at h
      exact (Except.error.inj h).symm
  · obtain ⟨t, ht, -⟩ := ofDouble_canonical x
    cases ht.symm.trans h

/-- `2^63` is past the cells, a negative zero is the integer zero, and a NaN has no integer
value. -/
theorem constructors_agree_ends :
    (∃ t, ofIntegral (.ofInt 9223372036854775808) = .ok t ∧
      ofDouble (.ofInt 9223372036854775808) = .ok t ∧ t.kind = .float) ∧
    (∃ t, ofIntegral (.zero true) = .ok t ∧ ofDouble (.zero true) = .ok t ∧ t.kind = .integer) ∧
    ofIntegral .nan = .error (.fault (.notInteger .nan)) ∧ ofDouble .nan = .ok (float .nan) := by
  obtain ⟨s, hs, hs', -, hsdenotes⟩ := (constructors_agree (.ofInt 9223372036854775808)).1
    9223372036854775808 (Binary64.value?_eq_int_iff.2 toInt?_ofInt_past_cells)
  obtain ⟨t, ht, ht', -, htdenotes⟩ := (constructors_agree (.zero true)).1 0
    (Binary64.value?_eq_int_iff.2 (by decide +kernel))
  obtain ⟨hrefused, -, hkept⟩ := (constructors_agree .nan).2.1 nofun
  exact ⟨⟨s, hs, hs', hsdenotes.float.2 (by decide)⟩, ⟨t, ht, ht', htdenotes.integer.2 (by decide)⟩,
    hrefused, hkept⟩

end Token

end ReversePolish
