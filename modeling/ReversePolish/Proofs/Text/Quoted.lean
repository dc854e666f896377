import ReversePolish.Proofs.Numeral.Figures
import ReversePolish.Text.Quoted

/-! # Texts of one line

A text is one line if it holds no line feed.  Quoted text is, whatever is quoted: a line feed is
written by its letter, and other controls by their codes in hexadecimal digits, so that none of
them is left (`isPlain_quotedChars`), a tab no more than a line feed. -/

namespace ReversePolish.Text

-- What holds of all characters of a text is decided along the text, not along all characters.
attribute [local instance (high)] List.decidableBAll

/-- Without a line feed. -/
def IsLine (cs : List Char) : Prop := '\n' ∉ cs

instance (cs : List Char) : Decidable (IsLine cs) := inferInstanceAs (Decidable (¬ _))

variable {cs ds : List Char} {c quote : Char}

theorem IsLine.cons (hc : c ≠ '\n') (hcs : IsLine cs) : IsLine (c :: cs) :=
  List.not_mem_cons_of_ne_of_not_mem hc.symm hcs

theorem IsLine.append (hcs : IsLine cs) (hds : IsLine ds) : IsLine (cs ++ ds) := by
  rw [IsLine, List.mem_append]
  exact not_or.2 ⟨hcs, hds⟩

theorem isLine_intercalate (hcs : IsLine cs) {parts : List (List Char)}
    (hparts : ∀ part ∈ parts, IsLine part) : IsLine (cs.intercalate parts) := by
  induction parts with
  | nil => exact List.not_mem_nil
  | cons part parts ih =>
      obtain ⟨hpart, hparts⟩ := List.forall_mem_cons.1 hparts
      cases parts with
      | nil => rwa [List.intercalate_singleton]
      | cons next parts =>
          rw [List.intercalate_cons_cons]
          exact (hpart.append hcs).append (ih hparts)

/-! ### Characters that are no controls -/

/-- Without the controls that come before the space. -/
def IsPlain (cs : List Char) : Prop := ∀ c ∈ cs, ' '.toNat ≤ c.toNat

instance (cs : List Char) : Decidable (IsPlain cs) := inferInstanceAs (Decidable (∀ c ∈ cs, _))

theorem IsPlain.not_mem (h : IsPlain cs) (hc : c.toNat < ' '.toNat) : c ∉ cs :=
  fun hmem => absurd (h c hmem) (Nat.not_le_of_lt hc)

theorem IsPlain.isLine (h : IsPlain cs) : IsLine cs := h.not_mem (by decide)

theorem IsPlain.cons (hc : ' '.toNat ≤ c.toNat) (hcs : IsPlain cs) : IsPlain (c :: cs) :=
  List.forall_mem_cons.2 ⟨hc, hcs⟩

theorem IsPlain.append (hcs : IsPlain cs) (hds : IsPlain ds) : IsPlain (cs ++ ds) :=
  List.forall_mem_append.2 ⟨hcs, hds⟩

theorem isPlain_nil : IsPlain [] := fun _ => (absurd · List.not_mem_nil)

theorem isPlain_of_isFigures (h : Numeral.IsFigures cs) : IsPlain cs := by
  have hall : ∀ c ∈ "0123456789+-.einfa".toList, ' '.toNat ≤ c.toNat := by decide
  exact fun c hc => hall c (h c hc)

theorem isLine_of_isFigures (h : Numeral.IsFigures cs) : IsLine cs :=
  (isPlain_of_isFigures h).isLine

/-! ### Hexadecimal digits -/

theorem space_le_digitChar {n : Nat} (h : n < 16) : ' '.toNat ≤ (Nat.digitChar n).toNat := by
  have hall : ∀ n < 16, ' '.toNat ≤ (Nat.digitChar n).toNat := by decide
  exact hall n h

theorem isPlain_toDigits (n : Nat) : IsPlain (Nat.toDigits 16 n) := by
  induction n using Nat.strongRecOn with
  | ind n ih =>
      rw [Nat.toDigits_eq_if (by decide)]
      split
      next h => exact .cons (space_le_digitChar h) isPlain_nil
      next h =>
        have hlast : n % 16 < 16 := Nat.mod_lt n (by decide)
        exact .append (ih (n / 16) (by omega)) (.cons (space_le_digitChar hlast) isPlain_nil)

theorem isPlain_hexadecimal (width code : Nat) : IsPlain (hexadecimal width code) := by
  refine .append (fun c hc => ?_) (isPlain_toDigits code)
  rw [List.eq_of_mem_replicate hc]
  decide

/-! ### Quoting -/

theorem space_le_of_printable (h : ¬ isUnprintable c) : ' '.toNat ≤ c.toNat := by
  by_contra hlt
  refine h (Bool.or_eq_true_iff.2 (.inl (List.any_eq_true.2 ⟨(0, 0x1f), by decide, ?_⟩)))
  have hcode : c.toNat < 32 := Nat.lt_of_not_le hlt
  simp only [Bool.and_eq_true, decide_eq_true_eq]
  omega

theorem isPlain_codeEscape (c : Char) : IsPlain (codeEscape c) := by
  unfold codeEscape
  dsimp only
  split
  · exact .cons (by decide) (.cons (by decide) (isPlain_hexadecimal _ _))
  split
  · exact .cons (by decide) (.cons (by decide) (isPlain_hexadecimal _ _))
  · exact .cons (by decide) (.cons (by decide) (isPlain_hexadecimal _ _))

theorem isPlain_escape (hquote : ' '.toNat ≤ quote.toNat) (c : Char) :
    IsPlain (escape quote c) := by
  unfold escape
  split
  next h =>
    have hc : ' '.toNat ≤ c.toNat := by
      rcases h with rfl | rfl
      · exact hquote
      · decide
    exact .cons (by decide) (.cons hc isPlain_nil)
  split
  · exact .cons (by decide) (.cons (by decide) isPlain_nil)
  split
  · exact .cons (by decide) (.cons (by decide) isPlain_nil)
  split
  · exact .cons (by decide) (.cons (by decide) isPlain_nil)
  split
  · exact isPlain_codeEscape c
  next hprints => exact .cons (space_le_of_printable hprints) isPlain_nil

/-- One of the two quotes. -/
def IsQuote (quote : Char) : Prop := quote = '\'' ∨ quote = '"'

theorem isQuote_quoteFor (cs : List Char) : IsQuote (quoteFor cs) := by
  unfold quoteFor
  split
  · exact .inr rfl
  · exact .inl rfl

theorem IsQuote.space_le (h : IsQuote quote) : ' '.toNat ≤ quote.toNat := by
  rcases h with rfl | rfl <;> decide

/-- **Quoted text holds no controls**, whatever is quoted. -/
theorem isPlain_quotedChars (cs : List Char) : IsPlain (quotedChars cs) := by
  have hquote := (isQuote_quoteFor cs).space_le
  refine .cons hquote (.append ?_ (.cons hquote isPlain_nil))
  exact List.forall_mem_flatMap.2 fun c _ => isPlain_escape hquote c

theorem isPlain_quoted (text : String) : IsPlain (quoted text).toList := by
  rw [quoted, String.toList_ofList]
  exact isPlain_quotedChars text.toList

theorem isLine_quoted (text : String) : IsLine (quoted text).toList := (isPlain_quoted text).isLine

end ReversePolish.Text
