import ReversePolish.Proofs.Lexicon.Grammar
import ReversePolish.Proofs.Numeral.Value
import ReversePolish.Proofs.Token.Integers

/-! # Words that are integers

A word of a sign and digits is read as an integer while it has at most `digitLimit` digits, and
then its token stands for that integer, whatever its size (`classify_short`).  A longer word is
read as a double (`classify_long`).  That gives the same token, unless the integer is close to the
cells or in them and is not the value of a double (`Token.IsLost`).

As zeros in front count as digits, they decide between the two ways of reading
(`classify_whole`). -/

namespace ReversePolish

namespace Lexicon

open Token (IsLost)
open Numeral (Spells digitLimit signedValue signedValue_zeros valueOf valueOf_zeros)

variable {word : String} {negative : Bool} {digits : List Char}

theorem doubleToken_of_spells {numeral : Numeral} (h : Spells numeral word.toList) :
    doubleToken word.toList = Token.ofDouble numeral.toDouble := by
  rw [doubleToken, Numeral.doubleOf_of_spells h]
  rfl

theorem doubleToken_whole (h : Spells (.whole negative digits) word.toList) :
    doubleToken word.toList = Token.ofDouble (.ofRatio negative (valueOf digits)) := by
  rw [doubleToken_of_spells h, ← Binary64.ofDecimal_zero]
  rfl

/-- A word that is not too long stands for its integer. -/
theorem classify_short (h : Spells (.whole negative digits) word.toList)
    (hshort : digits.length ≤ digitLimit) :
    classify word = .ok (Token.nearest (signedValue negative digits)) := by
  have hinteger : integerToken word.toList = Token.ofInt (signedValue negative digits) := by
    rw [integerToken, Numeral.integerOf, Numeral.read?_eq_some_iff.2 h]
    simp only [if_pos hshort]
    rfl
  rw [classify_literal_eq (Numeral.isLiteral_iff.2 ⟨_, h⟩), hinteger, doubleToken_whole h]
  by_cases hfinite : (Binary64.ofInt (signedValue negative digits)).isFinite
  · rw [Token.ofInt_eq_nearest hfinite]
  · rw [Token.ofInt_eq_error hfinite]
    refine (Token.ofDouble_ofRatio_iff negative (valueOf digits)).2 fun hlost => hfinite ?_
    exact Binary64.isFinite_ofInt_of_le (Token.natAbs_le_of_near hlost.1 hlost.2.1)

/-- A word that is too long is read as a double. -/
theorem classify_long (h : Spells (.whole negative digits) word.toList)
    (hlong : digitLimit < digits.length) :
    classify word = Token.ofDouble (.ofRatio negative (valueOf digits)) := by
  have hinteger : integerToken word.toList = .error (.trouble .undefined) := by
    rw [integerToken, Numeral.integerOf, Numeral.read?_eq_some_iff.2 h]
    simp only [if_neg (Nat.not_le.2 hlong)]
    rfl
  rw [classify_literal_eq (Numeral.isLiteral_iff.2 ⟨_, h⟩), hinteger, doubleToken_whole h]

/-- The token of a word is that of its integer unless the word is too long and its integer lost. -/
theorem classify_whole_iff (h : Spells (.whole negative digits) word.toList) :
    classify word = .ok (Token.nearest (signedValue negative digits)) ↔
      ¬ (digitLimit < digits.length ∧ IsLost (signedValue negative digits)) := by
  by_cases hlong : digitLimit < digits.length
  · rw [classify_long h hlong, and_iff_right hlong]
    exact Token.ofDouble_ofRatio_iff negative (valueOf digits)
  · exact iff_of_true (classify_short h (Nat.le_of_not_lt hlong)) fun hlost => hlong hlost.1

/-! ### Zeros in front -/

/-- Zeros in front change the token only where they make a word too long and its integer is lost. -/
theorem classify_zeros (h : Spells (.whole negative digits) word.toList) {k : Nat} {word' : String}
    (h' : Spells (.whole negative (List.replicate k '0' ++ digits)) word'.toList) :
    classify word' = classify word ↔
      ¬ (digits.length ≤ digitLimit ∧ digitLimit < k + digits.length ∧
        IsLost (signedValue negative digits)) := by
  have hlength : (List.replicate k '0' ++ digits).length = k + digits.length := by simp
  by_cases hshort : digits.length ≤ digitLimit
  · have htoken := classify_whole_iff h'
    rw [signedValue_zeros, hlength] at htoken
    rw [classify_short h hshort, and_iff_right hshort, htoken]
  · refine iff_of_true ?_ fun hlost => hshort hlost.1
    rw [classify_long h (Nat.lt_of_not_le hshort), classify_long h' (by omega), valueOf_zeros]

/-- **A word of a sign and digits stands for its integer unless it is too long and its integer
lost; but for that, zeros in front do not matter.** -/
theorem classify_whole (h : Spells (.whole negative digits) word.toList) :
    (Token.nearest (signedValue negative digits)).StandsFor (signedValue negative digits) ∧
      (classify word = .ok (Token.nearest (signedValue negative digits)) ↔
        ¬ (digitLimit < digits.length ∧ IsLost (signedValue negative digits))) ∧
      ∀ (k : Nat) (word' : String),
        Spells (.whole negative (List.replicate k '0' ++ digits)) word'.toList →
          (classify word' = classify word ↔
            ¬ (digits.length ≤ digitLimit ∧ digitLimit < k + digits.length ∧
              IsLost (signedValue negative digits))) :=
  ⟨Token.standsFor_nearest _, classify_whole_iff h, fun _ _ h' => classify_zeros h h'⟩

theorem spells_zeros (k : Nat) (h : Numeral.isDigits digits) :
    Spells (.whole false (List.replicate k '0' ++ digits))
      (String.ofList (List.replicate k '0' ++ digits)).toList := by
  obtain ⟨hne, hdigits⟩ := Numeral.isDigits_iff.1 h
  rw [String.toList_ofList]
  refine .whole .none (by simp [hne]) fun c hc => ?_
  rcases List.mem_append.1 hc with hzero | hdigit
  · rw [List.eq_of_mem_replicate hzero]
    decide
  · exact hdigits c hdigit

/-- Behind more zeros than are read as an integer, seven is still seven. -/
theorem classify_whole_seven :
    classify (String.ofList ['7']) = .ok (Token.nearest 7) ∧
      classify (String.ofList (List.replicate 4300 '0' ++ ['7'])) =
        classify (String.ofList ['7']) := by
  have hseven : Spells (.whole false ['7']) (String.ofList ['7']).toList :=
    spells_zeros 0 (by decide)
  have hexact : ¬ IsLost 7 := fun hlost => hlost.2.2 (.ofInt 7) (by decide +kernel)
  obtain ⟨-, htoken, hzeros⟩ := classify_whole hseven
  have hlong := hzeros 4300 _ (spells_zeros 4300 (by decide))
  exact ⟨htoken.2 fun hlost => hexact hlost.2, hlong.2 fun hlost => hexact hlost.2.2⟩

/-- Behind as many zeros, an integer between two doubles becomes one of them. -/
theorem long_word_not_exact :
    classify (String.ofList (List.replicate 4300 '0' ++ "9007199254740993".toList)) =
        .ok (.integer ⟨9007199254740992, by decide, by decide⟩) ∧
      signedValue false (List.replicate 4300 '0' ++ "9007199254740993".toList) =
        9007199254740993 := by
  have hvalue : valueOf (List.replicate 4300 '0' ++ "9007199254740993".toList) =
      9007199254740993 := valueOf_zeros _ _
  have hlong : digitLimit < (List.replicate 4300 '0' ++ "9007199254740993".toList).length := by
    rw [List.length_append, List.length_replicate]
    decide
  have hdouble : (Binary64.ofRatio false 9007199254740993).toInt? = some 9007199254740992 := by
    decide +kernel
  rw [classify_long (spells_zeros 4300 (by decide)) hlong, signedValue, hvalue]
  exact ⟨Token.ofDouble_of_fits hdouble (by decide), rfl⟩

end Lexicon

end ReversePolish
