import ReversePolish.Proofs.Binary64.Unique
import ReversePolish.Proofs.Lexicon.Integers
import ReversePolish.Proofs.Numeral.Value

/-! # Words that are decimal numbers

A numeral that is no integer word is read as a double (`classify_of_not_isWhole`), and an integer
word that is small enough might as well be (`classify_eq_ofDouble`).  The double is the one nearest
to the value of the numeral, and nearest doubles have the same token (`Token.ofDouble_congr`); so
the token of a word depends on its value and not on its spelling (`classify_by_value`). -/

namespace ReversePolish

attribute [local instance (high)] instPowNat

open Binary64 (IsNearest)

namespace Token

/-- Doubles nearest to one rational have one token; a zero has no sign there. -/
theorem ofDouble_congr {q : ℚ} {x y : Binary64} (hx : IsNearest q x) (hy : IsNearest q y) :
    ofDouble x = ofDouble y := by
  rcases hx.eq_or_zero hy with rfl | ⟨hx, hy⟩
  · rfl
  · rw [ofDouble_of_toInt? hx, ofDouble_of_toInt? hy]

end Token

namespace Lexicon

open Numeral (Spells isWhole digitLimit signedValue valueOf)

variable {word : String} {numeral : Numeral} {v : ℚ}

/-- A numeral that is no word of digits is read as a double. -/
theorem classify_of_not_isWhole (h : Spells numeral word.toList) (hwhole : ¬ isWhole word.toList) :
    classify word = Token.ofDouble numeral.toDouble := by
  rw [classify_literal_eq (Numeral.isLiteral_iff.2 ⟨_, h⟩)]
  cases hinteger : integerToken word.toList with
  | ok t =>
      obtain ⟨i, hi, -⟩ := integerToken_ok hinteger
      exact absurd (Numeral.isWhole_of_integerOf hi) hwhole
  | error failure => exact doubleToken_of_spells h

theorem not_isLost_of_le {negative : Bool} {c : Nat} (h : c ≤ 2 ^ (53 : Nat)) :
    ¬ Token.IsLost (Binary64.signed negative c) := by
  intro hlost
  have hgrid : Binary64.nearestOnGrid c 1 = c := by
    have := Binary64.nearestOnGrid_of_le (k := c) 0 h
    rwa [Nat.pow_zero, Nat.mul_one] at this
  have hfinite := Binary64.isFinite_ofRatio (h.trans (by decide)) negative 1
  have hvalue := Binary64.toInt?_ofRatio hfinite
  rw [hgrid] at hvalue
  exact hlost.2.2 _ hvalue

/-- Reading a word of digits as a double changes nothing up to `2^53`. -/
theorem classify_whole_eq_ofDouble {negative : Bool} {digits : List Char}
    (h : Spells (.whole negative digits) word.toList) (hsmall : valueOf digits ≤ 2 ^ (53 : Nat)) :
    classify word = Token.ofDouble (Numeral.whole negative digits).toDouble := by
  have hdouble : (Numeral.whole negative digits).toDouble =
      Binary64.ofRatio negative (valueOf digits) := Binary64.ofDecimal_zero _ _
  rw [hdouble]
  by_cases hlong : digitLimit < digits.length
  · exact classify_long h hlong
  · rw [classify_short h (Nat.le_of_not_lt hlong)]
    exact ((Token.ofDouble_ofRatio_iff _ _).2 (not_isLost_of_le hsmall)).symm

/-- **Up to `2^53`, and for words that are not digits alone, a decimal number is read as the double
nearest to it.** -/
theorem classify_eq_ofDouble (h : Spells numeral word.toList) (hv : numeral.toRat? = some v)
    (hexact : |v| ≤ 2 ^ 53 ∨ ¬ isWhole word.toList) :
    classify word = Token.ofDouble numeral.toDouble := by
  by_cases hwhole : isWhole word.toList
  · obtain ⟨negative, sign, digits, hsign, hne, hdigits, hword⟩ := Numeral.isWhole_iff.1 hwhole
    have hspells : Spells (.whole negative digits) word.toList := hword ▸ .whole hsign hne hdigits
    obtain rfl := h.unique hspells
    obtain rfl := Option.some.inj hv
    have hsmall : |((signedValue negative digits : Int) : ℚ)| ≤ 2 ^ 53 :=
      hexact.resolve_right (not_not_intro hwhole)
    have habs : |((signedValue negative digits : Int) : ℚ)| = valueOf digits :=
      Binary64.abs_signed negative (valueOf digits)
    rw [habs] at hsmall
    exact classify_whole_eq_ofDouble hspells (by exact_mod_cast hsmall)
  · exact classify_of_not_isWhole h hwhole

/-- **Two spellings of one number stand for the same token**, up to `2^53` whichever they are, and
beyond if neither is digits alone.  It is the token of the double nearest to the number. -/
theorem classify_by_value {numeral numeral' : Numeral} {word word' : String} {v : ℚ}
    (h : Spells numeral word.toList) (h' : Spells numeral' word'.toList)
    (hv : numeral.toRat? = some v) (hv' : numeral'.toRat? = some v)
    (hexact : |v| ≤ 2 ^ 53 ∨ ¬ isWhole word.toList ∧ ¬ isWhole word'.toList) :
    ∃ x t, IsNearest v x ∧ Token.ofDouble x = .ok t ∧ classify word = .ok t ∧
      classify word' = .ok t := by
  have hword := classify_eq_ofDouble h hv (hexact.imp_right And.left)
  have hword' := classify_eq_ofDouble h' hv' (hexact.imp_right And.right)
  have hnearest := Numeral.isNearest_toDouble hv
  have hsame := Token.ofDouble_congr (Numeral.isNearest_toDouble hv') hnearest
  obtain ⟨t, ht, -⟩ := Token.ofDouble_canonical numeral.toDouble
  exact ⟨_, t, hnearest, ht, hword.trans ht, hword'.trans (hsame.trans ht)⟩

/-- A thousand and zero, in some of their spellings. -/
theorem classify_by_value_spellings :
    (∀ word ∈ ["1e3", "+1000.", "001000.0", "0.1e4"], classify word = classify "1000") ∧
      ∀ word ∈ ["-0", "0.0", "-0e5", "0e-99999"], classify word = classify "0" := by
  have hsame {word word' : String} {v : ℚ} (numeral numeral' : Numeral)
      (h : Numeral.read? word.toList = some numeral)
      (h' : Numeral.read? word'.toList = some numeral')
      (hv : numeral.toRat? = some v) (hv' : numeral'.toRat? = some v) (hsmall : |v| ≤ 2 ^ 53) :
      classify word = classify word' := by
    obtain ⟨x, t, -, -, ht, ht'⟩ := classify_by_value (Numeral.read?_eq_some_iff.1 h)
      (Numeral.read?_eq_some_iff.1 h') hv hv' (.inl hsmall)
    rw [ht, ht']
  have hthousand {word : String} (numeral : Numeral) (h : Numeral.read? word.toList = some numeral)
      (hv : numeral.toRat? = some 1000) : classify word = classify "1000" :=
    hsame numeral (.whole false "1000".toList) h (by decide) hv (by decide +kernel) (by norm_num)
  have hzero {word : String} (numeral : Numeral) (h : Numeral.read? word.toList = some numeral)
      (hv : numeral.toRat? = some 0) : classify word = classify "0" :=
    hsame numeral (.whole false "0".toList) h (by decide) hv (by decide +kernel) (by norm_num)
  simp only [List.forall_mem_cons, List.not_mem_nil, false_imp_iff, forall_true_iff, and_true]
  refine ⟨⟨hthousand (.fraction false "1".toList 3) ?_ ?_,
    hthousand (.fraction false "1000".toList 0) ?_ ?_,
    hthousand (.fraction false "0010000".toList (-1)) ?_ ?_,
    hthousand (.fraction false "01".toList 3) ?_ ?_⟩,
    hzero (.whole true "0".toList) ?_ ?_, hzero (.fraction false "00".toList (-1)) ?_ ?_,
    hzero (.fraction true "0".toList 5) ?_ ?_,
    hzero (.fraction false "0".toList (-99999)) ?_ ?_⟩ <;> decide +kernel

end Lexicon

end ReversePolish
