import ReversePolish.Fault
import ReversePolish.Proofs.Text.Quoted

/-! # Messages

The message of a fault is one line (`isLine_message`), whatever the fault tells of: numbers are
written without a line feed, and a spelling, which may be any text at all, is quoted. -/

namespace ReversePolish

open Text (IsLine isLine_of_isFigures)

theorem Kind.isLine_noun (kind : Kind) : IsLine kind.noun.toList := by
  cases kind <;> decide

theorem Operator.isLine_symbol (op : Operator) : IsLine op.symbol.toList := by
  cases op <;> decide

namespace Fault

theorem isLine_append {a b : String} (ha : IsLine a.toList) (hb : IsLine b.toList) :
    IsLine (a ++ b).toList := by
  rw [String.toList_append]
  exact ha.append hb

theorem isLine_repr (n : Nat) : IsLine n.repr.toList :=
  isLine_of_isFigures (Numeral.isFigures_repr n)

theorem isLine_int (i : Int) : IsLine (toString i).toList :=
  isLine_of_isFigures (Numeral.isFigures_int i).1

theorem isLine_written (x : Binary64) : IsLine x.written.toList := by
  rw [Binary64.written, String.toList_ofList]
  exact isLine_of_isFigures (Binary64.isFigures_writtenChars x)

theorem isLine_nouns (kinds : List Kind) :
    IsLine (", ".intercalate (kinds.map Kind.noun)).toList := by
  rw [String.toList_intercalate, List.map_map]
  refine Text.isLine_intercalate (by decide) fun part hpart => ?_
  obtain ⟨kind, -, rfl⟩ := List.mem_map.1 hpart
  exact kind.isLine_noun

/-- **A message is one line.** -/
theorem isLine_message (f : Fault) : IsLine f.message.toList := by
  cases f with
  | unknownSymbol symbol | notOperator symbol =>
      exact isLine_append (by decide) (Text.isLine_quoted symbol)
  | arity op expected found =>
      have hop : IsLine ("Operator " ++ op.symbol ++ " expects ").toList :=
        isLine_append (isLine_append (by decide) op.isLine_symbol) (by decide)
      have hexpected : IsLine ("Operator " ++ op.symbol ++ " expects " ++ expected.repr).toList :=
        isLine_append hop (isLine_repr expected)
      exact isLine_append (isLine_append hexpected (by decide)) (isLine_repr found)
  | operandKinds op kinds =>
      exact isLine_append (isLine_append (isLine_append (by decide) op.isLine_symbol) (by decide))
        (isLine_nouns kinds)
  | notInteger x => exact isLine_append (isLine_written x) (by decide)
  | notNumber kind => exact isLine_append kind.isLine_noun (by decide)
  | outOfRange value => exact isLine_append (isLine_int value) (by decide)
  | undefined op => exact isLine_append (by decide) op.isLine_symbol
  | stackFull capacity =>
      exact isLine_append (isLine_append (by decide) (isLine_int capacity)) (by decide)
  | notSupported op =>
      exact isLine_append (isLine_append (by decide) op.isLine_symbol) (by decide)
  | ignoredToken | divisionByZero | emptyStack | noLastOperator | noLastOperands => decide

end Fault

end ReversePolish
