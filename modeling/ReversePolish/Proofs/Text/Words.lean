import Mathlib.Data.List.TakeWhile
import ReversePolish.Text.Words

/-! # Words of longer texts

A blank ends the word before it and is none itself.  So the words of a text are those before a
blank and then those behind it (`words_append_blank`), and a text between blanks keeps its words to
itself.  A text without blanks is one word (`words_of_isWord`), and words with blanks between them
are read one by one (`words_intercalate`). -/

namespace ReversePolish.Text

-- What holds of all characters of a text is decided along the text, not along all characters.
attribute [local instance (high)] List.decidableBAll

variable {w : Char}

theorem wordsOf_blank (hw : isBlank w) (cs : List Char) : wordsOf (w :: cs) = wordsOf cs := by
  rw [wordsOf, if_pos hw]

/-- A blank stops the word that the text before it ends with. -/
theorem takeWhile_isInk_append (hw : isBlank w) (a b : List Char) :
    (a ++ w :: b).takeWhile isInk = a.takeWhile isInk := by
  have hnil : (w :: b).takeWhile isInk = [] := List.takeWhile_cons_of_neg (by simp [isInk, hw])
  rw [List.takeWhile_append, hnil]
  split
  next hall => rw [List.append_nil, List.takeWhile_prefix isInk |>.eq_of_length hall]
  · rfl

theorem dropWhile_isInk_append (hw : isBlank w) (a b : List Char) :
    (a ++ w :: b).dropWhile isInk = a.dropWhile isInk ++ w :: b := by
  have hself : (w :: b).dropWhile isInk = w :: b := List.dropWhile_cons_of_neg (by simp [isInk, hw])
  rw [List.dropWhile_append, hself]
  split
  next hall => rw [List.isEmpty_iff.1 hall, List.nil_append]
  · rfl

theorem wordsOf_append_blank (hw : isBlank w) (a b : List Char) :
    wordsOf (a ++ w :: b) = wordsOf a ++ wordsOf b := by
  fun_induction wordsOf a with
  | case1 => exact wordsOf_blank hw b
  | case2 c cs hc ih => rw [List.cons_append, wordsOf_blank hc, ih]
  | case3 c cs hc ih =>
      rw [List.cons_append, wordsOf, if_neg hc, takeWhile_isInk_append hw,
        dropWhile_isInk_append hw, ih, List.cons_append]

/-- **The words of a text are those before any of its blanks, then those behind it.** -/
theorem words_append_blank (hw : isBlank w) (a b : String) :
    words (a ++ w.toString ++ b) = words a ++ words b := by
  have hchars : (a ++ w.toString ++ b).toList = a.toList ++ w :: b.toList := by simp
  rw [words, hchars, wordsOf_append_blank hw, List.map_append]
  rfl

/-! ### Words on their own -/

/-- A text that is not empty and has no blanks. -/
structure IsWord (text : String) : Prop where
  ne_nil : text.toList ≠ []
  isInk : ∀ c ∈ text.toList, isInk c

instance (text : String) : Decidable (IsWord text) :=
  decidable_of_iff (text.toList ≠ [] ∧ ∀ c ∈ text.toList, isInk c)
    ⟨fun h => ⟨h.1, h.2⟩, fun h => ⟨h.1, h.2⟩⟩

variable {text : String} {ws : List String}

/-- A text of one word. -/
theorem words_of_ink {c : Char} {cs : List Char} (h : ∀ d ∈ c :: cs, isInk d) :
    words (String.ofList (c :: cs)) = [String.ofList (c :: cs)] := by
  have hc : isBlank c = false := by simpa [isInk] using h c List.mem_cons_self
  have hcs : cs.takeWhile isInk = cs ∧ cs.dropWhile isInk = [] := by
    have htake := List.takeWhile_eq_self_iff.2 fun d hd => h d (List.mem_cons_of_mem c hd)
    exact ⟨htake, List.dropWhile_eq_nil_iff.2 fun d hd => h d (List.mem_cons_of_mem c hd)⟩
  rw [words, String.toList_ofList, wordsOf, if_neg (by simp [hc]), hcs.1, hcs.2, wordsOf]
  rfl

theorem words_of_isWord (h : IsWord text) : words text = [text] := by
  obtain ⟨c, cs, hchars⟩ := List.exists_cons_of_ne_nil h.ne_nil
  have htext : text = String.ofList (c :: cs) := by rw [← hchars, String.ofList_toList]
  rw [htext]
  exact words_of_ink (hchars ▸ h.isInk)

/-- **Words with blanks between them are read one by one.** -/
theorem words_intercalate (hw : isBlank w) (h : ∀ word ∈ ws, IsWord word) :
    words (w.toString.intercalate ws) = ws := by
  induction ws with
  | nil =>
      rw [String.intercalate_nil]
      exact congrArg (List.map String.ofList) wordsOf.eq_1
  | cons word rest ih =>
      obtain ⟨hword, hrest⟩ := List.forall_mem_cons.1 h
      cases rest with
      | nil => rw [String.intercalate_singleton, words_of_isWord hword]
      | cons next rest =>
          rw [String.intercalate_cons_cons, words_append_blank hw, words_of_isWord hword, ih hrest]
          rfl

end ReversePolish.Text
