import Mathlib.Data.List.TakeWhile
import ReversePolish.Lexicon
import ReversePolish.Proofs.Numeral.Reading
import ReversePolish.Proofs.Token.Canonical

/-! # Classification

Classifying a word never fails: a word that is read as an integer in vain is read again
(`classify_eq`), and reading it as a symbol always gives a token (`symbolToken_canonical`).  So a
text is the list of the tokens of its words, less those that stand for nothing (`parse_eq`).

The token of a word is canonical unless the word is that of an integer just below the cells
(`isCanonical_classify`). -/

namespace ReversePolish

namespace Numeral

theorem fraction?_ne_whole (negative : Bool) (cs : List Char) (negative' : Bool)
    (digits : List Char) : fraction? negative cs ≠ some (whole negative' digits) := by
  unfold fraction?
  dsimp only
  split
  · simp
  · simp [Option.map_eq_some_iff]

theorem word?_ne_whole (negative : Bool) (cs : List Char) (negative' : Bool)
    (digits : List Char) : word? negative cs ≠ some (whole negative' digits) := by
  unfold word?
  dsimp only
  split
  · simp
  · split <;> simp

/-- Only a sign and digits are read as an integer. -/
theorem read?_eq_whole {word : List Char} {negative : Bool} {digits : List Char}
    (h : read? word = some (whole negative digits)) :
    splitSign word = (negative, digits) ∧ isDigits digits := by
  unfold read? at h
  dsimp only at h
  split at h
  next hdigits =>
    cases h
    exact ⟨rfl, hdigits⟩
  · rcases Option.or_eq_some_iff.1 h with h | ⟨-, h⟩
    · exact absurd h (fraction?_ne_whole _ _ _ _)
    · exact absurd h (word?_ne_whole _ _ _ _)

theorem isWhole_of_integerOf {word : List Char} {i : Int} (h : integerOf word = .ok i) :
    isWhole word := by
  unfold integerOf at h
  split at h
  next hread =>
    obtain ⟨hsplit, hdigits⟩ := read?_eq_whole hread
    rwa [isWhole, hsplit]
  · cases h

theorem integerOf_error {word : List Char} {failure : Failure}
    (h : integerOf word = .error failure) : failure = .trouble .undefined := by
  unfold integerOf at h
  split at h
  · split at h
    · cases h
    · exact (Except.error.inj h).symm
  · exact (Except.error.inj h).symm

end Numeral

namespace Lexicon

/-! ### Reading again -/

theorem ofInt_error {i : Int} {failure : Failure} (h : Token.ofInt i = .error failure) :
    leavesDouble failure := by
  unfold Token.ofInt at h
  split at h
  · cases h
  · simp only [Number.asDouble] at h
    split at h
    · cases h
    · obtain rfl := Except.error.inj h
      dsimp only [Token.outOfRange]
      cases Numeral.isWritable i <;> rfl

/-- Whatever keeps a word from being read as an integer, it is read again. -/
theorem integerToken_error {word : List Char} {failure : Failure}
    (h : integerToken word = .error failure) : leavesDouble failure := by
  unfold integerToken at h
  cases hi : Numeral.integerOf word with
  | ok i => rw [hi] at h; exact ofInt_error h
  | error failure' =>
      rw [hi] at h
      obtain rfl := Except.error.inj h
      rw [Numeral.integerOf_error hi]
      rfl

theorem integerToken_ok {word : List Char} {t : Token} (h : integerToken word = .ok t) :
    ∃ i, Numeral.integerOf word = .ok i ∧ Token.ofInt i = .ok t := by
  unfold integerToken at h
  cases hi : Numeral.integerOf word with
  | ok i => rw [hi] at h; exact ⟨i, rfl, h⟩
  | error failure => rw [hi] at h; cases h

/-- **Classifying tries to read an integer first**, and anything else after that. -/
theorem classify_eq (word : String) :
    classify word =
      match integerToken word.toList with
      | .ok t => .ok t
      | .error _ => symbolToken word := by
  unfold classify
  split
  · cases h : integerToken word.toList with
    | ok t => rfl
    | error failure => exact if_pos (integerToken_error h)
  next hwhole =>
    cases h : integerToken word.toList with
    | ok t =>
        obtain ⟨i, hi, -⟩ := integerToken_ok h
        exact absurd (Numeral.isWhole_of_integerOf hi) hwhole
    | error failure => rfl

theorem classify_of_integerOf {word : String} {i : Int} {t : Token}
    (h : Numeral.integerOf word.toList = .ok i) (ht : Token.ofInt i = .ok t) :
    classify word = .ok t := by
  have hinteger : integerToken word.toList = .ok t := by
    rw [integerToken, h]
    exact ht
  rw [classify_eq, hinteger]

/-! ### Words that are read as something else -/

theorem operatorToken_canonical (word : String) :
    ∃ t, operatorToken word = .ok t ∧ t.IsCanonical := by
  unfold operatorToken Token.ofSymbol
  cases Operator.ofSymbol? word with
  | none => exact ⟨.ignored, rfl, trivial⟩
  | some op => exact ⟨.operator op, rfl, trivial⟩

theorem doubleToken_canonical {word : List Char} (h : Numeral.isNumeral word) :
    ∃ t, doubleToken word = .ok t ∧ t.IsCanonical := by
  obtain ⟨x, hx⟩ := Numeral.doubleOf_literal (Numeral.isNumeral_iff.1 h)
  rw [doubleToken, hx]
  exact Token.ofDouble_canonical x

/-- Every word has a token when it is not read as an integer, and it is canonical. -/
theorem symbolToken_canonical (word : String) : ∃ t, symbolToken word = .ok t ∧ t.IsCanonical := by
  unfold symbolToken
  split
  next h => exact doubleToken_canonical h
  split
  · exact ⟨_, rfl, trivial⟩
  split
  · exact ⟨_, rfl, trivial⟩
  · exact operatorToken_canonical word

/-! ### All words -/

/-- **Classifying never fails.** -/
theorem classify_ok (word : String) : ∃ t, classify word = .ok t := by
  rw [classify_eq]
  cases integerToken word.toList with
  | ok t => exact ⟨t, rfl⟩
  | error failure =>
      obtain ⟨t, ht, -⟩ := symbolToken_canonical word
      exact ⟨t, ht⟩

/-- **The token of a word is canonical unless the word stands for an integer just below the
cells.** -/
theorem isCanonical_classify {word : String} {t : Token} (h : classify word = .ok t) :
    t.IsCanonical ↔ ¬ ∃ i, Numeral.integerOf word.toList = .ok i ∧ JustBelowCells i := by
  rw [classify_eq] at h
  cases hinteger : integerToken word.toList with
  | ok u =>
      rw [hinteger] at h
      obtain rfl := Except.ok.inj h
      obtain ⟨i, hi, hu⟩ := integerToken_ok hinteger
      simp only [hi, Except.ok.injEq, exists_eq_left', Token.isCanonical_ofInt hu]
  | error failure =>
      rw [hinteger] at h
      obtain ⟨u, hu, hcanonical⟩ := symbolToken_canonical word
      obtain rfl := Except.ok.inj (hu.symm.trans h)
      refine iff_of_true hcanonical ?_
      rintro ⟨i, hi, hbelow⟩
      rw [integerToken, hi] at hinteger
      exact absurd (hinteger.symm.trans (Token.ofInt_justBelow hbelow)) (by simp)

/-! ### Texts -/

/-- The token that a word stands for. -/
def tokenOf (word : String) : Token :=
  match classify word with
  | .ok t => t
  | .error _ => .ignored

theorem classify_eq_tokenOf (word : String) : classify word = .ok (tokenOf word) := by
  obtain ⟨t, ht⟩ := classify_ok word
  rw [tokenOf, ht]

theorem parseWords_eq (words : List String) :
    parseWords words = .ok ((words.map tokenOf).filter Token.isLegitimate) := by
  induction words with
  | nil => rfl
  | cons word rest ih =>
      rw [parseWords, classify_eq_tokenOf, ih, List.map_cons, List.filter_cons]
      cases h : (tokenOf word).isLegitimate <;> simp [h, bind, Except.bind, pure, Except.pure]

/-- **Reading a text never fails.** -/
theorem parse_eq (text : String) :
    parse text = .ok (((Text.words text).map tokenOf).filter Token.isLegitimate) :=
  parseWords_eq (Text.words text)

end Lexicon

end ReversePolish
