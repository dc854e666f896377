import ReversePolish.Proofs.Numeral.Grammar

/-! # Texts read as numbers

A number is read off a text with blanks around it taken away, with its digits as the ten of ASCII
and without the underscores between them.  A numeral is spelt with characters that are none of that
(`IsLiteral.isMark`), so it is left as it is (`plain?_of_isLiteral`), and both readers give what the
word itself stands for (`doubleOf_of_spells`, `readInteger?_of_isLiteral`). -/

namespace ReversePolish.Numeral

-- What holds of all characters of a text is decided along the text, not along all characters.
attribute [local instance (high)] List.decidableBAll

variable {negative : Bool} {c : Char} {cs sign before places coefficient power : List Char}
  {exponent : Int} {numeral : Numeral}

/-! ### The characters of numerals -/

/-- A character that numerals are spelt with. -/
def IsMark (c : Char) : Prop := c ∈ "0123456789+-.eEinftyaINFTYA".toList

instance (c : Char) : Decidable (IsMark c) := inferInstanceAs (Decidable (c ∈ _))

theorem IsDigit.isMark (h : IsDigit c) : IsMark c := by
  have hall : ∀ c ∈ "0123456789".toList, IsMark c := by decide
  exact hall c h

theorem Sign.isMark (h : Sign negative sign) : ∀ c ∈ sign, IsMark c := by
  cases h <;> decide

theorem Coefficient.isMark (h : Coefficient before places coefficient) :
    ∀ c ∈ coefficient, IsMark c := by
  cases h with
  | whole _ hbefore => exact fun c hc => (hbefore c hc).isMark
  | pointed _ hbefore hplaces =>
      refine List.forall_mem_append.2 ⟨fun c hc => (hbefore c hc).isMark, ?_⟩
      exact List.forall_mem_cons.2 ⟨by decide, fun c hc => (hplaces c hc).isMark⟩
  | places _ hplaces =>
      exact List.forall_mem_cons.2 ⟨by decide, fun c hc => (hplaces c hc).isMark⟩

theorem Exponent.isMark (h : Exponent exponent power) : ∀ c ∈ power, IsMark c := by
  cases h with
  | none => exact List.forall_mem_nil _
  | @power e _ _ _ he hsign _ hdigits =>
      have hletter : IsMark e := by rcases he with rfl | rfl <;> decide
      refine List.forall_mem_cons.2 ⟨hletter, List.forall_mem_append.2 ⟨hsign.isMark, ?_⟩⟩
      exact fun c hc => (hdigits c hc).isMark

theorem IsName.isMark {name : String} (h : IsName name cs)
    (hname : ∀ letter ∈ name.toList, IsMark letter ∧ IsMark letter.toUpper) :
    ∀ c ∈ cs, IsMark c := by
  unfold IsName at h
  generalize name.toList = letters at h hname
  induction h with
  | nil => exact List.forall_mem_nil _
  | cons hc _ ih =>
      obtain ⟨hletter, hletters⟩ := List.forall_mem_cons.1 hname
      refine List.forall_mem_cons.2 ⟨?_, ih hletters⟩
      rcases hc with rfl | rfl
      · exact hletter.1
      · exact hletter.2

/-- **A numeral is spelt with digits, signs, a point and letters of its names.** -/
theorem IsLiteral.isMark (h : IsLiteral cs) : ∀ c ∈ cs, IsMark c := by
  cases h with
  | decimal hsign hcoefficient hexponent =>
      refine List.forall_mem_append.2 ⟨hsign.isMark, ?_⟩
      exact List.forall_mem_append.2 ⟨hcoefficient.isMark, hexponent.isMark⟩
  | name hsign hname =>
      refine List.forall_mem_append.2 ⟨hsign.isMark, ?_⟩
      rcases hname with h | h | h <;> exact h.isMark (by decide)

/-! ### What is taken out of a text -/

/-- Such a character is not a blank, no digit of another script and not an underscore. -/
theorem IsMark.plain (h : IsMark c) : ¬ Text.isBlank c ∧ plainDigit c = c ∧ c ≠ '_' := by
  have hall : ∀ c ∈ "0123456789+-.eEinftyaINFTYA".toList,
      ¬ Text.isBlank c ∧ plainDigit c = c ∧ c ≠ '_' := by decide +kernel
  exact hall c h

theorem trimBlanks_eq_self (h : ∀ c ∈ cs, ¬ Text.isBlank c) : trimBlanks cs = cs := by
  have hkept {cs : List Char} (h : ∀ c ∈ cs, ¬ Text.isBlank c) :
      cs.dropWhile Text.isBlank = cs :=
    List.dropWhile_eq_self_iff.2 fun hne => h _ (List.getElem_mem hne)
  rw [trimBlanks, hkept h, hkept fun c hc => h c (List.mem_reverse.1 hc), List.reverse_reverse]

theorem withoutUnderscores?_eq_self (h : ∀ c ∈ cs, c ≠ '_') (digit : Bool) :
    withoutUnderscores? digit cs = some cs := by
  induction cs generalizing digit with
  | nil => rfl
  | cons c rest ih =>
      obtain ⟨hc, hrest⟩ := List.forall_mem_cons.1 h
      rw [withoutUnderscores?, if_neg hc, ih hrest]
      rfl

/-- **Nothing is taken out of a numeral.** -/
theorem plain?_of_isLiteral (h : IsLiteral cs) : plain? cs = some cs := by
  have hplain := fun c hc => (h.isMark c hc).plain
  have hdigits : cs.map plainDigit = cs :=
    (List.map_congr_left fun c hc => (hplain c hc).2.1).trans (List.map_id cs)
  rw [plain?, trimBlanks_eq_self fun c hc => (hplain c hc).1, hdigits,
    withoutUnderscores?_eq_self fun c hc => (hplain c hc).2.2]

/-! ### Reading -/

/-- **A numeral is read as the double that it stands for.** -/
theorem doubleOf_of_spells (h : Spells numeral cs) : doubleOf cs = .ok numeral.toDouble := by
  rw [doubleOf, plain?_of_isLiteral (isLiteral_iff.2 ⟨numeral, h⟩), Option.bind_some,
    read?_eq_some_iff.2 h]

/-- Every numeral has a double. -/
theorem doubleOf_literal (h : IsLiteral cs) : ∃ x, doubleOf cs = .ok x := by
  obtain ⟨numeral, hspells⟩ := isLiteral_iff.1 h
  exact ⟨numeral.toDouble, doubleOf_of_spells hspells⟩

/-- A numeral is read as the integer that it stands for, if it is one. -/
theorem readInteger?_of_isLiteral (h : IsLiteral cs) :
    readInteger? cs = (integerOf cs).toOption := by
  rw [readInteger?, plain?_of_isLiteral h, Option.bind_some]

/-- Texts that are no numerals: blanks around a number, digits of another script, and underscores
that stand between digits and that do not. -/
example : readInteger? " -1_000\n".toList = some (-1000) ∧ readInteger? "٣٤".toList = some 34 ∧
    plain? "1__0".toList = none ∧ plain? "1_.5".toList = none := by
  decide +kernel

end ReversePolish.Numeral
