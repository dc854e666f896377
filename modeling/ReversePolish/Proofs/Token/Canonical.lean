import ReversePolish.Proofs.Binary64.Integral
import ReversePolish.Token

/-! # Canonical tokens

The token of a double is canonical, whichever way it is built (`ofDouble_canonical`,
`ofIntegral_canonical`).  The token of an integer is not always: whether the integer fits is asked
before it is rounded, and of those that do not fit the 1024 below the cells (`JustBelowCells`) round
back to `-2^63`, which does.  These are all (`isCanonical_ofInt`), and what they give is one and the
same token, `stray`.

A token is canonical if and only if wrapping its value again gives the token back
(`rewrapped_eq_iff`). -/

namespace ReversePolish

attribute [local instance (high)] instPowNat

/-- The integers below the cells that round to the least integer of a cell. -/
def JustBelowCells (i : Int) : Prop := cellMin - 1024 ≤ i ∧ i < cellMin

instance (i : Int) : Decidable (JustBelowCells i) := inferInstanceAs (Decidable (_ ∧ _))

theorem JustBelowCells.lt {i : Int} (h : JustBelowCells i) : i < cellMin := h.2

theorem not_justBelowCells {i : Int} (h : cellMin ≤ i) : ¬ JustBelowCells i :=
  fun hbelow => Int.not_le.2 hbelow.lt h

namespace Binary64

theorem not_justBelowCells_of_toInt? {x : Binary64} {i : Int} (h : x.toInt? = some i) :
    ¬ JustBelowCells i := by
  rintro ⟨hlow, hhigh⟩
  rw [cellMin] at hlow hhigh
  have hgrid := nearestOnGrid_of_toInt? h
  rw [nearestOnGrid_just_beyond (by omega) (by omega)] at hgrid
  omega

theorem isFinite_ofInt_justBelow {i : Int} (h : JustBelowCells i) : (ofInt i).isFinite := by
  obtain ⟨hlow, hhigh⟩ := h
  rw [cellMin] at hlow hhigh
  refine isFinite_ofInt (Nat.le_of_eq ?_)
  exact nearestOnGrid_just_beyond (by omega) (by omega)

theorem toInt?_ofInt_cellMin : (ofInt cellMin).toInt? = some cellMin := by decide +kernel

/-- They round to the least integer of a cell. -/
theorem ofInt_eq_of_justBelow {i : Int} (h : JustBelowCells i) : ofInt i = ofInt cellMin := by
  obtain ⟨fits, heq⟩ := ofInt_eq_finite (isFinite_ofInt_justBelow h)
  obtain ⟨fitsMin, heqMin⟩ := ofInt_eq_finite (i := cellMin) (isFinite_ofInt_of_le (by decide))
  obtain ⟨hlow, hhigh⟩ := h
  rw [cellMin] at hlow hhigh
  have hsign : decide (i < 0) = decide (cellMin < 0) :=
    decide_eq_decide.2 (iff_of_true (by omega) (by decide))
  have hgrid : nearestOnGrid i.natAbs 1 = nearestOnGrid cellMin.natAbs 1 := by
    rw [nearestOnGrid_just_beyond (by omega) (by omega), nearestOnGrid_just_beyond (by decide)
      (by decide)]
  rw [heq, heqMin]
  simp only [hsign, hgrid]

end Binary64

/-- The first integer past the cells is a double. -/
theorem toInt?_ofInt_past_cells :
    (Binary64.ofInt 9223372036854775808).toInt? = some 9223372036854775808 := by decide +kernel

namespace Token

open Binary64 (toInt?_ofInt nearestOnGrid_just_beyond lt_nearestOnGrid_beyond
  le_nearestOnGrid_cell)

/-! ### Tokens of integers -/

theorem ofInt_of_fits {i : Int} (h : cellMin ≤ i ∧ i ≤ cellMax) :
    ofInt i = .ok (integer ⟨i, h.1, h.2⟩) := by
  rw [ofInt, Cell.ofInt?, dif_pos h]

theorem ofInt_of_not_fits {i : Int} (h : ¬ (cellMin ≤ i ∧ i ≤ cellMax))
    (hfinite : (Binary64.ofInt i).isFinite) : ofInt i = .ok (float (Binary64.ofInt i)) := by
  rw [ofInt, Cell.ofInt?, dif_neg h]
  simp only [Number.asDouble, if_pos hfinite]
  rfl

theorem ofInt_eq_ok {i : Int} {t : Token} (h : ofInt i = .ok t) :
    (∃ hfits : cellMin ≤ i ∧ i ≤ cellMax, t = integer ⟨i, hfits.1, hfits.2⟩) ∨
      (i < cellMin ∨ cellMax < i) ∧ (Binary64.ofInt i).isFinite ∧ t = float (Binary64.ofInt i) := by
  by_cases hfits : cellMin ≤ i ∧ i ≤ cellMax
  · rw [ofInt_of_fits hfits, Except.ok.injEq] at h
    exact .inl ⟨hfits, h.symm⟩
  · refine .inr ⟨by omega, ?_⟩
    rw [ofInt, Cell.ofInt?, dif_neg hfits] at h
    simp only [Number.asDouble] at h
    split at h
    next hfinite => exact ⟨hfinite, (Except.ok.inj h).symm⟩
    · cases h

/-- The one double that stands for an integer of a cell. -/
def stray : Token := float (Binary64.ofInt cellMin)

theorem isCanonical_float {x : Binary64} {i : Int} (h : x.toInt? = some i) :
    (float x).IsCanonical ↔ i < cellMin ∨ cellMax < i := by
  change (∀ j, x.toInt? = some j → j < cellMin ∨ cellMax < j) ↔ _
  rw [h]
  simp only [Option.some.injEq, forall_eq']

theorem isCanonical_float_ofInt {i : Int} (h : (Binary64.ofInt i).isFinite)
    (hi : i < cellMin ∨ cellMax < i) :
    (float (Binary64.ofInt i)).IsCanonical ↔ ¬ JustBelowCells i := by
  rw [isCanonical_float (toInt?_ofInt h)]
  simp only [JustBelowCells, cellMin, cellMax, Binary64.signed, decide_eq_true_eq] at hi ⊢
  rcases hi with hbelow | habove
  · rw [if_pos (by omega)]
    by_cases hnear : i.natAbs ≤ 2 ^ (63 : Nat) + 1024
    · rw [nearestOnGrid_just_beyond (by omega) hnear]
      omega
    · have := lt_nearestOnGrid_beyond (Nat.lt_of_not_le hnear)
      omega
  · rw [if_neg (by omega)]
    have := le_nearestOnGrid_cell (k := i.natAbs) (by omega)
    omega

/-- **The token of an integer is canonical unless the integer lies just below the cells.** -/
theorem isCanonical_ofInt {i : Int} {t : Token} (h : ofInt i = .ok t) :
    t.IsCanonical ↔ ¬ JustBelowCells i := by
  rcases ofInt_eq_ok h with ⟨hfits, rfl⟩ | ⟨hi, hfinite, rfl⟩
  · exact iff_of_true trivial (not_justBelowCells hfits.1)
  · exact isCanonical_float_ofInt hfinite hi

/-- All integers just below the cells have the same token. -/
theorem ofInt_justBelow {i : Int} (h : JustBelowCells i) : ofInt i = .ok stray := by
  have hfits : ¬ (cellMin ≤ i ∧ i ≤ cellMax) := fun hfits => not_justBelowCells hfits.1 h
  rw [ofInt_of_not_fits hfits (Binary64.isFinite_ofInt_justBelow h),
    Binary64.ofInt_eq_of_justBelow h, stray]

theorem stray_not_canonical : ¬ stray.IsCanonical := by
  rw [stray, isCanonical_float Binary64.toInt?_ofInt_cellMin]
  decide

theorem isCanonical_or_stray_of_ofInt {i : Int} {t : Token} (h : ofInt i = .ok t) :
    t.IsCanonical ∨ t = stray := by
  by_cases hbelow : JustBelowCells i
  · rw [ofInt_justBelow hbelow] at h
    exact .inr (Except.ok.inj h).symm
  · exact .inl ((isCanonical_ofInt h).2 hbelow)

/-! ### Tokens of doubles -/

theorem ofIntegral_of_toInt? {x : Binary64} {i : Int} (h : x.toInt? = some i) :
    ofIntegral x = ofInt i := by
  rw [ofIntegral, if_pos (Binary64.isIntegral_iff.2 ⟨i, h⟩), Number.truncate_double h]
  rfl

theorem ofDouble_of_fits {x : Binary64} {i : Int} (h : x.toInt? = some i)
    (hfits : cellMin ≤ i ∧ i ≤ cellMax) : ofDouble x = .ok (integer ⟨i, hfits.1, hfits.2⟩) := by
  have hcell : x.isIntegral && Number.betweenCells x :=
    Bool.and_eq_true_iff.2
      ⟨Binary64.isIntegral_iff.2 ⟨i, h⟩, (Number.betweenCells_iff h).2 hfits⟩
  rw [ofDouble, if_pos hcell, ofIntegral_of_toInt? h, ofInt_of_fits hfits]

/-- An integral double has a token, and it is canonical: no double lies just below the cells. -/
theorem ofIntegral_canonical {x : Binary64} (h : x.isIntegral) :
    ∃ t, ofIntegral x = .ok t ∧ t.IsCanonical := by
  obtain ⟨i, hi⟩ := Binary64.isIntegral_iff.1 h
  rw [ofIntegral_of_toInt? hi]
  by_cases hfits : cellMin ≤ i ∧ i ≤ cellMax
  · exact ⟨_, ofInt_of_fits hfits, trivial⟩
  · have hzero : i ≠ 0 := by
      rintro rfl
      exact hfits (by decide)
    have hx : Binary64.ofInt i = x := Binary64.ofInt_of_toInt? hi hzero
    have hfinite : (Binary64.ofInt i).isFinite := hx ▸ Binary64.isFinite_of_toInt? hi
    refine ⟨_, ofInt_of_not_fits hfits hfinite, ?_⟩
    exact (isCanonical_float_ofInt hfinite (by omega)).2 (Binary64.not_justBelowCells_of_toInt? hi)

/-- Every double has a token, and it is canonical. -/
theorem ofDouble_canonical (x : Binary64) : ∃ t, ofDouble x = .ok t ∧ t.IsCanonical := by
  by_cases hcell : x.isIntegral && Number.betweenCells x
  · rw [ofDouble, if_pos hcell]
    exact ofIntegral_canonical (Bool.and_eq_true_iff.1 hcell).1
  · rw [ofDouble, if_neg hcell]
    refine ⟨_, rfl, fun i hi => ?_⟩
    rw [Binary64.isIntegral_iff.2 ⟨i, hi⟩, Bool.true_and, Number.betweenCells_iff hi] at hcell
    omega

/-- The token of a double is a cell, or it holds the double itself. -/
theorem ofDouble_eq_ok {x : Binary64} {t : Token} (h : ofDouble x = .ok t) :
    (∃ cell, t = integer cell) ∨ t = float x := by
  by_cases hcell : x.isIntegral && Number.betweenCells x
  · obtain ⟨hintegral, hbetween⟩ := Bool.and_eq_true_iff.1 hcell
    obtain ⟨i, hi⟩ := Binary64.isIntegral_iff.1 hintegral
    rw [ofDouble_of_fits hi ((Number.betweenCells_iff hi).1 hbetween)] at h
    exact .inl ⟨_, (Except.ok.inj h).symm⟩
  · rw [ofDouble, if_neg hcell] at h
    exact .inr (Except.ok.inj h).symm

/-! ### Wrapping again -/

/-- The token of the value of a numeric token, by the constructor of its kind. -/
def rewrapped : Token → Except Failure Token
  | integer cell => ofInt cell.value
  | float x => ofDouble x
  | t => .ok t

theorem rewrapped_eq_iff (t : Token) : t.rewrapped = .ok t ↔ t.IsCanonical := by
  cases t with
  | integer cell => exact iff_of_true (ofInt_of_fits ⟨cell.min_le, cell.le_max⟩) trivial
  | float x =>
      constructor
      · intro h
        obtain ⟨t, ht, hcanonical⟩ := ofDouble_canonical x
        rw [show t = float x from Except.ok.inj (ht.symm.trans h)] at hcanonical
        exact hcanonical
      · intro hcanonical
        refine if_neg fun hcell => ?_
        obtain ⟨hintegral, hbetween⟩ := Bool.and_eq_true_iff.1 hcell
        obtain ⟨i, hi⟩ := Binary64.isIntegral_iff.1 hintegral
        have hfits := (Number.betweenCells_iff hi).1 hbetween
        have := (isCanonical_float hi).1 hcanonical
        omega
  | _ => exact iff_of_true rfl trivial

end Token

end ReversePolish
