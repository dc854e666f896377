import ReversePolish.Proofs.Lexicon.Integers
import ReversePolish.Proofs.Numeral.Figures
import ReversePolish.Proofs.Text.Words

/-! # Displays as words

An integer is written with a minus, if it is negative, and the digits of its absolute value
(`toList_int`), and reading them gives the integer back.  So the display of an integer, of a truth
value and of an operator is classified as just that token (`classify_display`), and it is a word
(`isWord_display`), so that displays with blanks between them are read one by one
(`words_displays`). -/

namespace ReversePolish

namespace Numeral

variable (i : Int)

theorem toList_int :
    (toString i).toList = (if i < 0 then ['-'] else []) ++ Nat.toDigits 10 i.natAbs := by
  rw [Int.toString_eq_repr, Int.repr_eq_if]
  by_cases h : i < 0
  · have habs : (-i).toNat = i.natAbs := by omega
    rw [if_pos h, if_neg (Int.not_le.2 h), String.toList_append, Nat.toList_repr, habs]
    rfl
  · have habs : i.toNat = i.natAbs := by omega
    rw [if_neg h, if_pos (Int.not_lt.1 h), Nat.toList_repr, habs]
    rfl

/-- Written out, an integer is a numeral. -/
theorem spells_int :
    Spells (.whole (i < 0) (Nat.toDigits 10 i.natAbs)) (toString i).toList := by
  rw [toList_int]
  refine .whole ?_ Nat.toDigits_ne_nil (isRun_toDigits _)
  by_cases h : i < 0
  · rw [if_pos h, decide_eq_true h]
    exact .minus
  · rw [if_neg h, decide_eq_false h]
    exact .none

/-- The digits of a cell are few enough to be read as an integer. -/
theorem length_toDigits_cell (cell : Cell) :
    (Nat.toDigits 10 cell.value.natAbs).length ≤ digitLimit := by
  have hfits : cell.value.natAbs < 10 ^ (19 : Nat) := by
    have hmin := cell.min_le
    have hmax := cell.le_max
    rw [cellMin] at hmin
    rw [cellMax] at hmax
    omega
  have hdigits := (Nat.length_toDigits_le_iff (by decide) (by decide)).2 hfits
  exact Nat.le_trans hdigits (by decide)

end Numeral

/-! ### Words -/

namespace Text

variable {text : String}

theorem isWord_of_isFigures (h : Numeral.IsFigures text.toList ∧ text.toList ≠ []) :
    IsWord text := by
  have hink : "0123456789+-.einfa".toList.all isInk := by decide
  exact ⟨h.2, fun c hc => List.all_eq_true.1 hink c (h.1 c hc)⟩

theorem isWord_of_all (h : text.toList.all isInk && text.toList != []) : IsWord text := by
  obtain ⟨hink, hne⟩ := Bool.and_eq_true_iff.1 h
  exact ⟨bne_iff_ne.1 hne, List.all_eq_true.1 hink⟩

end Text

/-! ### Displays -/

namespace Token

open Text (IsWord)

/-- An integer, a truth value, or an operator that was looked up. -/
def IsExact : Token → Prop
  | integer _ | boolean _ | operator _ => True
  | _ => False

variable {t : Token}

theorem isExact_of_kind (h : t.kind = .integer ∨ t.kind = .boolean) : t.IsExact := by
  cases t with
  | integer cell => trivial
  | boolean b => trivial
  | _ => rcases h with h | h <;> cases h

theorem isWord_display (h : t.IsExact) : IsWord t.display := by
  cases t with
  | integer cell => exact Text.isWord_of_isFigures (Numeral.isFigures_int cell.value)
  | boolean b => cases b <;> exact Text.isWord_of_all (by decide)
  | operator op => cases op <;> exact Text.isWord_of_all (by decide)
  | _ => cases h

end Token

namespace Lexicon

variable {t : Token} {ts : List Token}

/-- **The display of an integer, a truth value or an operator is classified as that token.** -/
theorem classify_display (h : t.IsExact) : classify t.display = .ok t := by
  cases t with
  | integer cell =>
      have hclassify := classify_short (Numeral.spells_int cell.value)
        (Numeral.length_toDigits_cell cell)
      rwa [Numeral.signedValue_toDigits, Token.nearest_of_fits ⟨cell.min_le, cell.le_max⟩]
        at hclassify
  | boolean b => exact classify_truthWord b
  | operator op => exact classify_symbol op
  | _ => cases h

theorem tokenOf_display (h : t.IsExact) : tokenOf t.display = t := by
  rw [tokenOf, classify_display h]

/-- The words of displays with blanks between them are the displays. -/
theorem words_displays {w : Char} (hw : Text.isBlank w) (h : ∀ t ∈ ts, t.IsExact) :
    Text.words (w.toString.intercalate (ts.map Token.display)) = ts.map Token.display := by
  refine Text.words_intercalate hw fun word hword => ?_
  obtain ⟨t, ht, rfl⟩ := List.mem_map.1 hword
  exact Token.isWord_display (h t ht)

end Lexicon

end ReversePolish
