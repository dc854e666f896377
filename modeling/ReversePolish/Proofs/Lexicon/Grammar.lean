import ReversePolish.Proofs.Evaluation.Results
import ReversePolish.Proofs.Lexicon.Classification
import ReversePolish.Proofs.Numeral.Grammar

/-! # The grammar of words

A word is a numeral, a word for a truth value, the symbol of an operator, or none of these, and
never two of them (`classes_disjoint`).  Classifying asks for the classes in this order, and for
numerals twice; as no word is of two classes, the order does not matter, and the token that comes
out tells the class (`classify_isTokenOf`). -/

namespace ReversePolish.Lexicon

open Numeral (IsLiteral)

/-- A word for a truth value. -/
def IsTruthWord (word : String) : Prop := word = trueWord ∨ word = falseWord

/-- The symbol of an operator. -/
def IsSymbol (word : String) : Prop := word ∈ Operator.all.map Operator.symbol

theorem isTruthWord_iff {word : String} : IsTruthWord word ↔ ∃ b, truthWord b = word := by
  constructor
  · rintro (rfl | rfl)
    · exact ⟨true, rfl⟩
    · exact ⟨false, rfl⟩
  · rintro ⟨b, rfl⟩
    cases b
    · exact .inr rfl
    · exact .inl rfl

theorem isSymbol_iff {word : String} : IsSymbol word ↔ ∃ op : Operator, op.symbol = word := by
  rw [IsSymbol, List.mem_map]
  constructor
  · rintro ⟨op, -, h⟩
    exact ⟨op, h⟩
  · rintro ⟨op, h⟩
    exact ⟨op, Operator.mem_all op, h⟩

example : (Operator.all.map Operator.symbol).length = 34 := rfl

/-! ### The classes are disjoint -/

variable {word : String}

theorem IsTruthWord.not_literal (h : IsTruthWord word) : ¬ IsLiteral word.toList := by
  rw [← Numeral.isNumeral_iff]
  rcases h with rfl | rfl
  · decide
  · decide

theorem IsSymbol.not_literal (h : IsSymbol word) : ¬ IsLiteral word.toList := by
  obtain ⟨op, rfl⟩ := isSymbol_iff.1 h
  rw [← Numeral.isNumeral_iff]
  cases op <;> decide

theorem IsSymbol.not_truthWord (h : IsSymbol word) : ¬ IsTruthWord word := by
  obtain ⟨op, rfl⟩ := isSymbol_iff.1 h
  refine not_or.2 ⟨?_, ?_⟩
  · cases op <;> decide
  · cases op <;> decide

/-- **No word is of two classes.** -/
theorem classes_disjoint (word : String) :
    [IsLiteral word.toList, IsTruthWord word, IsSymbol word].Pairwise fun p q => ¬ (p ∧ q) := by
  simp only [List.pairwise_cons, List.forall_mem_cons, List.not_mem_nil, false_imp_iff,
    forall_true_iff, List.Pairwise.nil, and_true, not_and]
  exact ⟨⟨fun h htruth => htruth.not_literal h, fun h hsymbol => hsymbol.not_literal h⟩,
    fun h hsymbol => hsymbol.not_truthWord h⟩

/-! ### The token of a word -/

/-- A numeral is read as an integer, or else as a double. -/
theorem classify_literal_eq (h : IsLiteral word.toList) :
    classify word =
      match integerToken word.toList with
      | .ok t => .ok t
      | .error _ => doubleToken word.toList := by
  have hsymbol : symbolToken word = doubleToken word.toList := if_pos (Numeral.isNumeral_iff.2 h)
  refine (classify_eq word).trans ?_
  cases integerToken word.toList with
  | ok t => rfl
  | error failure => exact hsymbol

theorem classify_literal (h : IsLiteral word.toList) :
    ∃ t, classify word = .ok t ∧ t.isNumeric := by
  rw [classify_literal_eq h]
  cases hinteger : integerToken word.toList with
  | ok t =>
      obtain ⟨i, -, ht⟩ := integerToken_ok hinteger
      exact ⟨t, rfl, Token.ofInt_isNumeric i t ht⟩
  | error failure =>
      obtain ⟨x, hx⟩ := Numeral.doubleOf_literal h
      obtain ⟨t, ht, -⟩ := Token.ofDouble_canonical x
      rw [doubleToken, hx]
      exact ⟨t, ht, Token.ofDouble_isNumeric x t ht⟩

/-- A word that is no numeral is looked up. -/
theorem classify_not_literal (h : ¬ IsLiteral word.toList) :
    classify word =
      if word = trueWord then .ok (.boolean true)
      else if word = falseWord then .ok (.boolean false)
      else operatorToken word := by
  rw [classify_eq]
  cases hinteger : integerToken word.toList with
  | ok t =>
      obtain ⟨i, hi, -⟩ := integerToken_ok hinteger
      exact absurd (Numeral.isLiteral_of_isWhole (Numeral.isWhole_of_integerOf hi)) h
  | error failure => exact if_neg (mt Numeral.isNumeral_iff.1 h)

theorem classify_truthWord (b : Bool) : classify (truthWord b) = .ok (.boolean b) := by
  have h : IsTruthWord (truthWord b) := isTruthWord_iff.2 ⟨b, rfl⟩
  rw [classify_not_literal h.not_literal]
  cases b <;> rfl

theorem operatorToken_symbol (op : Operator) : operatorToken op.symbol = .ok (.operator op) := by
  rw [operatorToken, Token.ofSymbol, Operator.ofSymbol?_symbol]

theorem classify_symbol (op : Operator) : classify op.symbol = .ok (.operator op) := by
  have h : IsSymbol op.symbol := isSymbol_iff.2 ⟨op, rfl⟩
  obtain ⟨htrue, hfalse⟩ := not_or.1 h.not_truthWord
  rw [classify_not_literal h.not_literal, if_neg htrue, if_neg hfalse, operatorToken_symbol]

theorem operatorToken_unknown (h : ¬ IsSymbol word) :
    operatorToken word = .ok .ignored := by
  have hnone : Operator.ofSymbol? word = none := by
    cases hop : Operator.ofSymbol? word with
    | none => rfl
    | some op => exact absurd (isSymbol_iff.2 ⟨op, Operator.symbol_of_ofSymbol? hop⟩) h
  rw [operatorToken, Token.ofSymbol, hnone]

theorem classify_unknown (hliteral : ¬ IsLiteral word.toList)
    (htruth : ¬ IsTruthWord word) (hsymbol : ¬ IsSymbol word) : classify word = .ok .ignored := by
  obtain ⟨htrue, hfalse⟩ := not_or.1 htruth
  rw [classify_not_literal hliteral, if_neg htrue, if_neg hfalse, operatorToken_unknown hsymbol]

/-! ### The class of a word -/

/-- What is known of the token that a word is classified as. -/
structure IsTokenOf (word : String) (t : Token) : Prop where
  numeric : t.isNumeric ↔ IsLiteral word.toList
  boolean : t.isBoolean ↔ IsTruthWord word
  truth : t.isBoolean → ∃ b, t = .boolean b ∧ truthWord b = word
  operator : t.isOperator ↔ IsSymbol word
  symbol : t.isOperator → ∃ op, t = .operator op ∧ op.symbol = word
  ignored : t = .ignored ↔ ¬ IsLiteral word.toList ∧ ¬ IsTruthWord word ∧ ¬ IsSymbol word

theorem isTokenOf_numeric {t : Token} (h : IsLiteral word.toList) (ht : t.isNumeric) :
    IsTokenOf word t := by
  have htruth : ¬ IsTruthWord word := fun htruth => htruth.not_literal h
  have hsymbol : ¬ IsSymbol word := fun hsymbol => hsymbol.not_literal h
  cases t with
  | integer | float =>
      exact
        { numeric := iff_of_true rfl h
          boolean := iff_of_false nofun htruth
          truth := nofun
          operator := iff_of_false nofun hsymbol
          symbol := nofun
          ignored := iff_of_false nofun fun hignored => hignored.1 h }
  | _ => cases ht

theorem isTokenOf_truthWord (b : Bool) : IsTokenOf (truthWord b) (.boolean b) := by
  have h : IsTruthWord (truthWord b) := isTruthWord_iff.2 ⟨b, rfl⟩
  have hsymbol : ¬ IsSymbol (truthWord b) := fun hsymbol => hsymbol.not_truthWord h
  exact
    { numeric := iff_of_false nofun h.not_literal
      boolean := iff_of_true rfl h
      truth := fun _ => ⟨b, rfl, rfl⟩
      operator := iff_of_false nofun hsymbol
      symbol := nofun
      ignored := iff_of_false nofun fun hignored => hignored.2.1 h }

theorem isTokenOf_symbol (op : Operator) : IsTokenOf op.symbol (.operator op) := by
  have h : IsSymbol op.symbol := isSymbol_iff.2 ⟨op, rfl⟩
  exact
    { numeric := iff_of_false nofun h.not_literal
      boolean := iff_of_false nofun h.not_truthWord
      truth := nofun
      operator := iff_of_true rfl h
      symbol := fun _ => ⟨op, rfl, rfl⟩
      ignored := iff_of_false nofun fun hignored => hignored.2.2 h }

theorem isTokenOf_ignored (hliteral : ¬ IsLiteral word.toList) (htruth : ¬ IsTruthWord word)
    (hsymbol : ¬ IsSymbol word) : IsTokenOf word .ignored where
  numeric := iff_of_false nofun hliteral
  boolean := iff_of_false nofun htruth
  truth := nofun
  operator := iff_of_false nofun hsymbol
  symbol := nofun
  ignored := iff_of_true rfl ⟨hliteral, htruth, hsymbol⟩

/-- **Every word is classified by the class that it belongs to.** -/
theorem classify_isTokenOf (word : String) : ∃ t, classify word = .ok t ∧ IsTokenOf word t := by
  by_cases hliteral : IsLiteral word.toList
  · obtain ⟨t, ht, hnumeric⟩ := classify_literal hliteral
    exact ⟨t, ht, isTokenOf_numeric hliteral hnumeric⟩
  by_cases htruth : IsTruthWord word
  · obtain ⟨b, rfl⟩ := isTruthWord_iff.1 htruth
    exact ⟨_, classify_truthWord b, isTokenOf_truthWord b⟩
  by_cases hsymbol : IsSymbol word
  · obtain ⟨op, rfl⟩ := isSymbol_iff.1 hsymbol
    exact ⟨_, classify_symbol op, isTokenOf_symbol op⟩
  · exact ⟨_, classify_unknown hliteral htruth hsymbol,
      isTokenOf_ignored hliteral htruth hsymbol⟩

/-! ### Texts -/

theorem mapM_classify (words : List String) : words.mapM classify = .ok (words.map tokenOf) := by
  induction words with
  | nil => rfl
  | cons word rest ih =>
      rw [List.mapM_cons, classify_eq_tokenOf, ih]
      rfl

/-- **Classifying finds the one class that a word belongs to, and reading a text keeps what stands
for something.**  Neither ever fails: every numeral has a double, and a numeral that is not read as
an integer, for whatever reason, is read as that. -/
theorem classify_grammar :
    (∀ word : String,
      (∃ t, classify word = .ok t ∧ IsTokenOf word t) ∧
        [IsLiteral word.toList, IsTruthWord word, IsSymbol word].Pairwise (fun p q => ¬ (p ∧ q)) ∧
          (IsLiteral word.toList →
            (∃ x, Numeral.doubleOf word.toList = .ok x) ∧
              classify word =
                match integerToken word.toList with
                | .ok t => .ok t
                | .error _ => doubleToken word.toList)) ∧
      ∀ text : String, ∃ ts, (Text.words text).mapM classify = .ok ts ∧
        parse text = .ok (ts.filter fun t => t.kind ≠ .ignored) := by
  constructor
  · intro word
    refine ⟨classify_isTokenOf word, classes_disjoint word, fun h => ?_⟩
    exact ⟨Numeral.doubleOf_literal h, classify_literal_eq h⟩
  · intro text
    have hkeep : (fun t : Token => decide (t.kind ≠ .ignored)) = Token.isLegitimate := by
      funext t
      simp [Token.isLegitimate, bne, BEq.beq]
    refine ⟨_, mapM_classify (Text.words text), ?_⟩
    rw [hkeep, parse_eq]

end ReversePolish.Lexicon
