import ReversePolish.Proofs.Text.Words

/-! # Texts laid out as words

A `Layout` is a text told as its words, with what stands in front of them and behind each.  It is
spaced if only blanks stand around the words and any two are kept apart (`Layout.IsSpaced`).  Every
text has a spaced layout (`exists_layout`), and whatever spaced layout it has, its words are those
of the layout (`words_layout`): so nothing but blanks is lost, no word is split or merged, and the
order is kept (`words_unique`). -/

namespace ReversePolish.Text

attribute [local instance (high)] List.decidableBAll

/-- Blanks, or nothing. -/
def IsSpace (text : String) : Prop := ∀ c ∈ text.toList, isBlank c

instance (text : String) : Decidable (IsSpace text) := inferInstanceAs (Decidable (∀ c ∈ _, _))

/-- A text in front, and then words, each with the text that stands behind it. -/
structure Layout where
  front : String
  parts : List (String × String)

namespace Layout

/-- The text that is laid out. -/
def text (l : Layout) : String :=
  l.front ++ String.join (l.parts.map fun part => part.1 ++ part.2)

def words (l : Layout) : List String := l.parts.map Prod.fst

/-- All but the words is blank, and between two words something stands. -/
structure IsSpaced (l : Layout) : Prop where
  front : IsSpace l.front
  word : ∀ part ∈ l.parts, IsWord part.1
  space : ∀ part ∈ l.parts, IsSpace part.2
  between : ∀ part ∈ l.parts.dropLast, part.2 ≠ ""

instance (l : Layout) : Decidable l.IsSpaced :=
  decidable_of_iff (IsSpace l.front ∧ (∀ part ∈ l.parts, IsWord part.1) ∧
      (∀ part ∈ l.parts, IsSpace part.2) ∧ ∀ part ∈ l.parts.dropLast, part.2 ≠ "")
    ⟨fun h => ⟨h.1, h.2.1, h.2.2.1, h.2.2.2⟩, fun h => ⟨h.1, h.2, h.3, h.4⟩⟩

end Layout

/-! ### Reading a layout -/

variable {space word : String}

theorem wordsOf_blanks {s : List Char} (hs : ∀ c ∈ s, isBlank c) (cs : List Char) :
    wordsOf (s ++ cs) = wordsOf cs := by
  induction s with
  | nil => rfl
  | cons c s ih =>
      obtain ⟨hc, hs⟩ := List.forall_mem_cons.1 hs
      rw [List.cons_append, wordsOf_blank hc, ih hs]

theorem words_space_append (hspace : IsSpace space) (text : String) :
    words (space ++ text) = words text := by
  rw [words, String.toList_append, wordsOf_blanks hspace]
  rfl

/-- A word that is kept apart from what follows it. -/
theorem words_word_append (hword : IsWord word) (hspace : IsSpace space) (hne : space ≠ "")
    (text : String) : words (word ++ space ++ text) = word :: words text := by
  obtain ⟨c, cs, hchars⟩ := List.exists_cons_of_ne_nil (mt String.toList_eq_nil_iff.1 hne)
  rw [IsSpace, hchars] at hspace
  obtain ⟨hc, hcs⟩ := List.forall_mem_cons.1 hspace
  have hspace : IsSpace (String.ofList cs) := by rwa [IsSpace, String.toList_ofList]
  have hsplit : word ++ space ++ text = word ++ c.toString ++ (String.ofList cs ++ text) := by
    rw [← String.toList_inj]
    simp [hchars]
  rw [hsplit, words_append_blank hc, words_of_isWord hword, words_space_append hspace]
  rfl

theorem words_empty : words "" = [] := congrArg (List.map String.ofList) wordsOf.eq_1

/-- The last word may end the text. -/
theorem words_last (hword : IsWord word) (hspace : IsSpace space) :
    words (word ++ space) = [word] := by
  by_cases hne : space = ""
  · rw [hne, String.append_empty, words_of_isWord hword]
  · rw [← String.append_empty (s := word ++ space), words_word_append hword hspace hne, words_empty]

theorem words_parts {parts : List (String × String)} (hword : ∀ part ∈ parts, IsWord part.1)
    (hspace : ∀ part ∈ parts, IsSpace part.2)
    (hbetween : ∀ part ∈ parts.dropLast, part.2 ≠ "") :
    words (String.join (parts.map fun part => part.1 ++ part.2)) = parts.map Prod.fst := by
  induction parts with
  | nil => exact words_empty
  | cons part rest ih =>
      obtain ⟨hw, hword⟩ := List.forall_mem_cons.1 hword
      obtain ⟨hs, hspace⟩ := List.forall_mem_cons.1 hspace
      cases rest with
      | nil =>
          rw [List.map_singleton, String.join_cons, String.join_nil, String.append_empty]
          exact words_last hw hs
      | cons next rest =>
          rw [List.dropLast_cons_cons] at hbetween
          obtain ⟨hne, hbetween⟩ := List.forall_mem_cons.1 hbetween
          rw [List.map_cons, String.join_cons, words_word_append hw hs hne,
            ih hword hspace hbetween]
          rfl

/-- **The words of a spaced layout are the words of its text.** -/
theorem words_layout {l : Layout} (h : l.IsSpaced) : words l.text = l.words := by
  rw [Layout.text, words_space_append h.front, words_parts h.word h.space h.between]
  rfl

/-! ### Laying a text out -/

/-- Without blanks in front a spaced layout begins with a word. -/
theorem Layout.IsSpaced.head_isInk {l : Layout} (h : l.IsSpaced) (hfront : l.front = "")
    (hparts : l.parts ≠ []) : ∃ c ∈ l.text.toList.head?, isInk c := by
  obtain ⟨part, rest, heq⟩ := List.exists_cons_of_ne_nil hparts
  have hword := h.word part (heq ▸ List.mem_cons_self)
  obtain ⟨c, cs, hchars⟩ := List.exists_cons_of_ne_nil hword.ne_nil
  refine ⟨c, ?_, hword.isInk c (hchars ▸ List.mem_cons_self)⟩
  simp [text, hfront, heq, String.join_cons, hchars]

/-- What is left behind a word is blank where it begins. -/
theorem not_isInk_head_dropWhile (cs : List Char) :
    ¬ ∃ c ∈ (cs.dropWhile isInk).head?, isInk c := by
  rintro ⟨c, hc, hink⟩
  have hstop := List.head?_dropWhile_not isInk cs
  rw [Option.mem_def] at hc
  rw [hc] at hstop
  exact absurd hink (by simp [hstop])

/-- A word in front of a layout that does not begin with one. -/
theorem Layout.IsSpaced.cons {l : Layout} (h : l.IsSpaced) (hword : IsWord word)
    (hhead : ¬ ∃ c ∈ l.text.toList.head?, isInk c) :
    (Layout.mk "" ((word, l.front) :: l.parts)).IsSpaced where
  front := by simp [IsSpace]
  word := List.forall_mem_cons.2 ⟨hword, h.word⟩
  space := List.forall_mem_cons.2 ⟨h.front, h.space⟩
  between := by
    cases hparts : l.parts with
    | nil => simp
    | cons next rest =>
        rw [List.dropLast_cons_cons, ← hparts]
        refine List.forall_mem_cons.2 ⟨fun hfront => hhead ?_, h.between⟩
        exact h.head_isInk hfront (hparts ▸ List.cons_ne_nil next rest)

theorem exists_layout_chars (cs : List Char) : ∃ l : Layout, l.IsSpaced ∧ l.text.toList = cs := by
  fun_induction wordsOf cs with
  | case1 => exact ⟨⟨"", []⟩, ⟨by simp [IsSpace], by simp, by simp, by simp⟩, by simp [Layout.text]⟩
  | case2 c cs hc ih =>
      obtain ⟨l, hl, htext⟩ := ih
      have hfront : IsSpace (c.toString ++ l.front) := by simpa [IsSpace, hc] using hl.front
      refine ⟨⟨c.toString ++ l.front, l.parts⟩, ⟨hfront, hl.word, hl.space, hl.between⟩, ?_⟩
      rw [← htext]
      simp [Layout.text]
  | case3 c cs hc ih =>
      obtain ⟨l, hl, htext⟩ := ih
      have hword : IsWord (String.ofList (c :: cs.takeWhile isInk)) := by
        refine ⟨by simp, ?_⟩
        rw [String.toList_ofList]
        exact List.forall_mem_cons.2 ⟨by simp [isInk, hc], fun d hd => List.mem_takeWhile_imp hd⟩
      refine ⟨_, hl.cons hword (htext ▸ not_isInk_head_dropWhile cs), ?_⟩
      let word := String.ofList (c :: cs.takeWhile isInk)
      calc (Layout.mk "" ((word, l.front) :: l.parts)).text.toList
          = c :: (cs.takeWhile isInk ++ l.text.toList) := by
            simp [word, Layout.text, String.join_cons]
        _ = c :: cs := by rw [htext, List.takeWhile_append_dropWhile]

/-- Every text has a spaced layout. -/
theorem exists_layout (text : String) : ∃ l : Layout, l.IsSpaced ∧ l.text = text := by
  obtain ⟨l, hl, htext⟩ := exists_layout_chars text.toList
  exact ⟨l, hl, String.toList_inj.1 htext⟩

/-! ### The words of a text -/

/-- **The words of a text are the one list of words that it can be laid out as, with blanks around
them and between any two**; and a blank anywhere divides them into those before it and those
behind it. -/
theorem words_unique :
    (∀ (text : String) (ws : List String),
      words text = ws ↔ ∃ l : Layout, l.IsSpaced ∧ l.text = text ∧ l.words = ws) ∧
      ∀ w : Char, isBlank w → ∀ a b : String,
        words (a ++ w.toString ++ b) = words a ++ words b := by
  refine ⟨fun text ws => ⟨?_, ?_⟩, fun w hw a b => words_append_blank hw a b⟩
  · rintro rfl
    obtain ⟨l, hl, rfl⟩ := exists_layout text
    exact ⟨l, hl, rfl, (words_layout hl).symm⟩
  · rintro ⟨l, hl, rfl, rfl⟩
    exact words_layout hl

/-- The line separator and the next line character divide words; an information separator and the
zero width space are letters of them. -/
theorem words_unique_separators :
    words "\u00a01\u001c\u0085\u20282\u200b" = ["1\u001c", "2\u200b"] ∧
      words ("1\u001c" ++ '\u0085'.toString ++ "\u20282\u200b") =
        words "1\u001c" ++ words "\u20282\u200b" := by
  obtain ⟨hlayout, hblank⟩ := words_unique
  let l : Layout := ⟨"\u00a0", [("1\u001c", "\u0085\u2028"), ("2\u200b", "")]⟩
  have hl : l.IsSpaced := by decide
  exact ⟨(hlayout _ _).2 ⟨l, hl, rfl, rfl⟩, hblank '\u0085' (by decide) _ _⟩

end ReversePolish.Text
