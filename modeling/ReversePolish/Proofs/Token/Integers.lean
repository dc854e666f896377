import ReversePolish.Proofs.Binary64.Nearest
import ReversePolish.Proofs.Token.Canonical

/-! # Tokens of integers

`StandsFor i t` says which token stands for an integer `i`, whatever its size: the integer itself
where it fits a cell, and else the double nearest to it, be it an infinity.  `nearest i` is that
token (`standsFor_nearest`), and `ofInt` gives it for every integer that rounds to a finite double
(`ofInt_eq_nearest`).  An integer that is read as a double has the same token unless it is lost: it
is in the cells or just below them, and no double is equal to it (`ofDouble_ofRatio_iff`). -/

namespace ReversePolish

attribute [local instance (high)] instPowNat

namespace Token

/-- The token stands for an integer: as it is, if it fits a cell, and else rounded once. -/
inductive StandsFor (i : Int) : Token → Prop
  | cell (hmin : cellMin ≤ i) (hmax : i ≤ cellMax) : StandsFor i (integer ⟨i, hmin, hmax⟩)
  | rounded {x : Binary64} (hout : i < cellMin ∨ cellMax < i) (hx : Binary64.IsNearest i x) :
      StandsFor i (float x)

/-- The token that stands for an integer. -/
def nearest (i : Int) : Token :=
  match Cell.ofInt? i with
  | some cell => integer cell
  | none => float (Binary64.ofInt i)

theorem nearest_of_fits {i : Int} (h : cellMin ≤ i ∧ i ≤ cellMax) :
    nearest i = integer ⟨i, h.1, h.2⟩ := by
  rw [nearest, Cell.ofInt?, dif_pos h]

theorem nearest_of_not_fits {i : Int} (h : ¬ (cellMin ≤ i ∧ i ≤ cellMax)) :
    nearest i = float (Binary64.ofInt i) := by
  rw [nearest, Cell.ofInt?, dif_neg h]

theorem standsFor_nearest (i : Int) : StandsFor i (nearest i) := by
  by_cases h : cellMin ≤ i ∧ i ≤ cellMax
  · rw [nearest_of_fits h]
    exact .cell h.1 h.2
  · rw [nearest_of_not_fits h]
    exact .rounded (by omega) (Binary64.isNearest_ofInt i)

theorem ofInt_eq_nearest {i : Int} (h : (Binary64.ofInt i).isFinite) :
    ofInt i = .ok (nearest i) := by
  by_cases hfits : cellMin ≤ i ∧ i ≤ cellMax
  · rw [ofInt_of_fits hfits, nearest_of_fits hfits]
  · rw [ofInt_of_not_fits hfits h, nearest_of_not_fits hfits]

/-- An integer that does not round to a finite double has no token. -/
theorem ofInt_eq_error {i : Int} (h : ¬ (Binary64.ofInt i).isFinite) :
    ofInt i = .error (outOfRange i (.trouble .overflow)) := by
  have hfits : ¬ (cellMin ≤ i ∧ i ≤ cellMax) := by
    rintro ⟨hmin, hmax⟩
    refine h (Binary64.isFinite_ofInt_of_le ?_)
    rw [cellMin] at hmin
    rw [cellMax] at hmax
    omega
  rw [ofInt, Cell.ofInt?, dif_neg hfits]
  simp only [Number.asDouble, if_neg h]
  rfl

theorem ofDouble_of_not_fits {x : Binary64} {i : Int} (h : x.toInt? = some i)
    (hfits : ¬ (cellMin ≤ i ∧ i ≤ cellMax)) : ofDouble x = .ok (float x) := by
  refine if_neg fun hcell => hfits ?_
  exact (Number.betweenCells_iff h).1 (Bool.and_eq_true_iff.1 hcell).2

/-! ### Integers as doubles -/

open Binary64 (ofRatio signed)

variable {negative : Bool} {c : Nat}

/-- An integer in the cells, or just below them, that no double is equal to. -/
def IsLost (i : Int) : Prop :=
  cellMin - 1024 ≤ i ∧ i ≤ cellMax ∧ ∀ x : Binary64, x.toInt? ≠ some i

/-- An integer near the cells is far from the last doubles. -/
theorem natAbs_le_of_near {i : Int} (hmin : cellMin - 1024 ≤ i) (hmax : i ≤ cellMax) :
    i.natAbs ≤ 2 ^ (126 : Nat) := by
  rw [cellMin] at hmin
  rw [cellMax] at hmax
  omega

/-- A double stands for its value. -/
theorem ofDouble_of_toInt? {x : Binary64} {i : Int} (h : x.toInt? = some i) :
    ofDouble x = .ok (nearest i) := by
  by_cases hfits : cellMin ≤ i ∧ i ≤ cellMax
  · rw [ofDouble_of_fits h hfits, nearest_of_fits hfits]
  · have hzero : i ≠ 0 := by
      rintro rfl
      exact hfits (by decide)
    rw [ofDouble_of_not_fits h hfits, nearest_of_not_fits hfits, Binary64.ofInt_of_toInt? h hzero]

theorem nearest_inj {i j : Int} (hj : cellMin ≤ j ∧ j ≤ cellMax) (h : nearest i = nearest j) :
    i = j := by
  rw [nearest_of_fits hj] at h
  by_cases hi : cellMin ≤ i ∧ i ≤ cellMax
  · rw [nearest_of_fits hi] at h
    exact congrArg Cell.value (integer.inj h)
  · rw [nearest_of_not_fits hi] at h
    cases h

/-- The rounding of an integer of the cells stands for it if it is the integer itself. -/
theorem ofDouble_ofRatio_of_fits (hfinite : (ofRatio negative c).isFinite)
    (hfits : cellMin ≤ signed negative c ∧ signed negative c ≤ cellMax) :
    ofDouble (ofRatio negative c) = .ok (nearest (signed negative c)) ↔
      ¬ IsLost (signed negative c) := by
  have hvalue := Binary64.toInt?_ofRatio hfinite
  rw [ofDouble_of_toInt? hvalue, Except.ok.injEq]
  constructor
  · intro h hlost
    rw [nearest_inj hfits h] at hvalue
    exact hlost.2.2 _ hvalue
  · intro hlost
    obtain ⟨x, hx⟩ : ∃ x : Binary64, x.toInt? = some (signed negative c) := by
      by_contra hnone
      exact hlost ⟨by omega, hfits.2, fun x hx => hnone ⟨x, hx⟩⟩
    have hgrid := Binary64.nearestOnGrid_of_toInt? hx
    rw [Binary64.natAbs_signed] at hgrid
    rw [hgrid]

/-- The rounding of any other integer stands for it if it does not fit either. -/
theorem ofDouble_ofRatio_of_not_fits (hfinite : (ofRatio negative c).isFinite)
    (hfits : ¬ (cellMin ≤ signed negative c ∧ signed negative c ≤ cellMax)) :
    ofDouble (ofRatio negative c) = .ok (nearest (signed negative c)) ↔
      ¬ IsLost (signed negative c) := by
  have hzero : signed negative c ≠ 0 := by
    intro hzero
    rw [hzero] at hfits
    exact hfits (by decide)
  have hdouble := Binary64.ofInt_signed hzero
  have hlost : IsLost (signed negative c) ↔ JustBelowCells (signed negative c) := by
    refine ⟨fun h => ⟨h.1, by have := h.2.1; omega⟩, fun h => ⟨h.1, ?_, fun x hx => ?_⟩⟩
    · exact Int.le_trans (Int.le_of_lt h.lt) (by decide)
    · exact Binary64.not_justBelowCells_of_toInt? hx h
  have hcanonical := isCanonical_float_ofInt (hdouble ▸ hfinite) (by omega)
  rw [hlost, ← hcanonical, nearest_of_not_fits hfits, hdouble]
  exact rewrapped_eq_iff (float (ofRatio negative c))

/-- **The double that an integer is rounded to stands for the integer unless the integer is
lost.** -/
theorem ofDouble_ofRatio_iff (negative : Bool) (c : Nat) :
    ofDouble (ofRatio negative c) = .ok (nearest (signed negative c)) ↔
      ¬ IsLost (signed negative c) := by
  by_cases hfinite : (ofRatio negative c).isFinite
  · by_cases hfits : cellMin ≤ signed negative c ∧ signed negative c ≤ cellMax
    · exact ofDouble_ofRatio_of_fits hfinite hfits
    · exact ofDouble_ofRatio_of_not_fits hfinite hfits
  · have hfar : ¬ (cellMin - 1024 ≤ signed negative c ∧ signed negative c ≤ cellMax) := by
      rintro ⟨hmin, hmax⟩
      have hbound : c ≤ 2 ^ (126 : Nat) := by
        rw [← Binary64.natAbs_signed negative c]
        exact natAbs_le_of_near hmin hmax
      exact hfinite (Binary64.isFinite_ofRatio hbound negative 1)
    have hdouble : Binary64.ofInt (signed negative c) = ofRatio negative c := by
      refine Binary64.ofInt_signed fun hzero => hfar ?_
      rw [hzero]
      decide
    rw [nearest_of_not_fits (by omega), hdouble, Binary64.eq_infinite_of_not_finite hfinite]
    exact iff_of_true rfl fun hlost => hfar ⟨hlost.1, hlost.2.1⟩

end Token

end ReversePolish
