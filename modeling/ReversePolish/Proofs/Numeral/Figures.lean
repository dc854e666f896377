import ReversePolish.Binary64.Decimal
import ReversePolish.Proofs.Numeral.Grammar

/-! # The characters of numbers

Integers and doubles are written with the ten digits, a point, signs, the letter of an exponent and
the letters of the two words for what is no finite number (`IsFigure`), whichever form they are
written in; and something is always written. -/

namespace ReversePolish

-- What holds of all characters of a text is decided along the text, not along all characters.
attribute [local instance (high)] List.decidableBAll

namespace Numeral

/-- A character that numbers are written with. -/
def IsFigure (c : Char) : Prop := c ∈ "0123456789+-.einfa".toList

instance (c : Char) : Decidable (IsFigure c) := inferInstanceAs (Decidable (c ∈ _))

/-- Written with such characters only. -/
def IsFigures (cs : List Char) : Prop := ∀ c ∈ cs, IsFigure c

instance (cs : List Char) : Decidable (IsFigures cs) := inferInstanceAs (Decidable (∀ c ∈ cs, _))

variable {cs ds : List Char} {c : Char}

theorem IsFigures.cons (hc : IsFigure c) (hcs : IsFigures cs) : IsFigures (c :: cs) :=
  List.forall_mem_cons.2 ⟨hc, hcs⟩

theorem IsFigures.append (hcs : IsFigures cs) (hds : IsFigures ds) : IsFigures (cs ++ ds) :=
  List.forall_mem_append.2 ⟨hcs, hds⟩

theorem IsFigures.mono (hcs : IsFigures cs) (h : ds ⊆ cs) : IsFigures ds :=
  fun c hc => hcs c (h hc)

theorem isFigures_replicate (hc : IsFigure c) (n : Nat) : IsFigures (List.replicate n c) := by
  intro d hd
  rw [List.eq_of_mem_replicate hd]
  exact hc

theorem IsFigures.withoutTail (hcs : IsFigures cs) (p : Char → Bool) :
    IsFigures (cs.reverse.dropWhile p).reverse := by
  refine hcs.mono fun c hc => ?_
  have hmem : c ∈ cs.reverse.dropWhile p := List.mem_reverse.1 hc
  exact List.mem_reverse.1 ((List.dropWhile_sublist p).subset hmem)

theorem IsFigures.leftpad (hcs : IsFigures cs) (n : Nat) : IsFigures (cs.leftpad n '0') :=
  .append (isFigures_replicate (by decide) _) hcs

/-! ### Integers -/

theorem IsDigit.isFigure (h : IsDigit c) : IsFigure c := by
  have hall : ∀ c ∈ "0123456789".toList, IsFigure c := by decide
  exact hall c h

theorem isRun_toDigits (n : Nat) : IsRun (Nat.toDigits 10 n) := by
  intro c hc
  exact isDigit_iff.1 (Nat.isDigit_of_mem_toDigits (by decide) (by decide) hc)

theorem isFigures_toDigits (n : Nat) : IsFigures (Nat.toDigits 10 n) :=
  fun c hc => (isRun_toDigits n c hc).isFigure

theorem isFigures_repr (n : Nat) : IsFigures n.repr.toList := by
  rw [Nat.repr_eq_ofList_toDigits, String.toList_ofList]
  exact isFigures_toDigits n

theorem repr_ne_nil (n : Nat) : n.repr.toList ≠ [] := by
  rw [Nat.repr_eq_ofList_toDigits, String.toList_ofList]
  exact Nat.toDigits_ne_nil

theorem isFigures_int (i : Int) : IsFigures (toString i).toList ∧ (toString i).toList ≠ [] := by
  rw [Int.toString_eq_repr, Int.repr_eq_if]
  split
  · exact ⟨isFigures_repr _, repr_ne_nil _⟩
  · rw [String.toList_append]
    exact ⟨.append (by decide) (isFigures_repr _),
      List.append_ne_nil_of_right_ne_nil _ (repr_ne_nil _)⟩

end Numeral

/-! ### Doubles -/

namespace Binary64

open Numeral (IsFigures isFigures_toDigits isFigures_replicate)

variable {cs : List Char}

theorem isFigures_minus (negative : Bool) : IsFigures (minus negative) := by
  cases negative <;> decide

theorem isFigures_fixedChars (x : Binary64) : IsFigures x.fixedChars ∧ x.fixedChars ≠ [] := by
  cases x with
  | finite negative units fits =>
      refine ⟨.append (.append (isFigures_minus negative) (isFigures_toDigits _))
        (.cons (by decide) ((isFigures_toDigits _).leftpad _)), ?_⟩
      exact List.append_ne_nil_of_right_ne_nil _ (List.cons_ne_nil _ _)
  | infinite negative => cases negative <;> decide
  | nan => decide

theorem isFigures_positional (hcs : IsFigures cs) (point : Int) :
    IsFigures (positional cs point) := by
  unfold positional
  split
  · split
    · exact .cons (by decide) (.cons (by decide) hcs)
    split
    · exact .append (.append hcs (isFigures_replicate (by decide) _)) (by decide)
    · exact .append (hcs.mono (List.take_subset _ _))
        (.cons (by decide) (hcs.mono (List.drop_subset _ _)))
  · exact .cons (by decide) (.cons (by decide) (.append (isFigures_replicate (by decide) _) hcs))

theorem isFigures_exponentChars (exponent : Int) : IsFigures (exponentChars exponent) := by
  refine .cons (by decide) (.cons ?_ ((isFigures_toDigits _).leftpad _))
  split <;> decide

theorem isFigures_scientific (hcs : IsFigures cs) (exponent : Int) :
    IsFigures (scientific cs exponent) := by
  refine .append ?_ (isFigures_exponentChars exponent)
  split
  · exact hcs
  · exact hcs
  next d ds =>
    obtain ⟨hd, hds⟩ := List.forall_mem_cons.1 hcs
    exact .cons hd (.cons (by decide) hds)

theorem Decimal.isFigures_chars (d : Decimal) : IsFigures d.chars := by
  unfold chars
  split
  · decide
  · have hdigits := (isFigures_toDigits d.coefficient).withoutTail (· = '0')
    dsimp only
    split
    · exact isFigures_positional hdigits _
    · exact isFigures_scientific hdigits _

theorem isFigures_writtenChars (x : Binary64) : IsFigures x.writtenChars := by
  cases x with
  | finite negative units fits =>
      exact .append (isFigures_minus negative) (Decimal.isFigures_chars _)
  | infinite negative => cases negative <;> decide
  | nan => decide

end Binary64

end ReversePolish
