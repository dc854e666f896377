import Mathlib.Data.List.Basic

/-! # Separated texts

Texts are joined by a comma and a blank.  Splitting where the two stand next to each other gives
the texts back if none of them holds a comma (`splitSeparated_intercalate`); only that there were
none at all is not seen, as an empty text is split into one that is empty.  Where texts are joined
by a single character that none of them holds, it is counted once between any two
(`count_intercalate`). -/

namespace ReversePolish.Text

/-- What stands between two texts. -/
def separator : List Char := [',', ' ']

/-- Puts a character in front of the first text. -/
def extendFirst (c : Char) : List (List Char) → List (List Char)
  | [] => [[c]]
  | part :: parts => (c :: part) :: parts

/-- Splits at every separator, from the left. -/
def splitSeparated : List Char → List (List Char)
  | [] => [[]]
  | ',' :: ' ' :: rest => [] :: splitSeparated rest
  | c :: rest => extendFirst c (splitSeparated rest)

variable {c : Char} {part : List Char}

theorem splitSeparated_cons (hc : c ≠ ',') (rest : List Char) :
    splitSeparated (c :: rest) = extendFirst c (splitSeparated rest) := by
  rw [splitSeparated]
  rintro _ rfl
  exact absurd rfl hc

theorem splitSeparated_part (h : ',' ∉ part) : splitSeparated part = [part] := by
  induction part with
  | nil => rfl
  | cons c part ih =>
      obtain ⟨hc, hpart⟩ := List.ne_and_not_mem_of_not_mem_cons h
      rw [splitSeparated_cons hc.symm, ih hpart]
      rfl

theorem splitSeparated_append (h : ',' ∉ part) (rest : List Char) :
    splitSeparated (part ++ separator ++ rest) = part :: splitSeparated rest := by
  induction part with
  | nil => rfl
  | cons c part ih =>
      obtain ⟨hc, hpart⟩ := List.ne_and_not_mem_of_not_mem_cons h
      rw [List.cons_append, List.cons_append, splitSeparated_cons hc.symm, ih hpart]
      rfl

/-- **Splitting undoes joining** texts without commas. -/
theorem splitSeparated_intercalate {parts : List (List Char)} (hne : parts ≠ [])
    (h : ∀ part ∈ parts, ',' ∉ part) : splitSeparated (separator.intercalate parts) = parts := by
  induction parts with
  | nil => exact absurd rfl hne
  | cons part parts ih =>
      obtain ⟨hpart, hparts⟩ := List.forall_mem_cons.1 h
      cases parts with
      | nil => rw [List.intercalate_singleton, splitSeparated_part hpart]
      | cons next parts =>
          rw [List.intercalate_cons_cons, splitSeparated_append hpart,
            ih (List.cons_ne_nil next parts) hparts]

/-- **A character that joins parts without it** stands between any two of them and nowhere else. -/
theorem count_intercalate {parts : List (List Char)} (h : ∀ part' ∈ part :: parts, c ∉ part') :
    ([c].intercalate (part :: parts)).count c = parts.length := by
  induction parts generalizing part with
  | nil =>
      rw [List.intercalate_singleton]
      exact List.count_eq_zero.2 (h part List.mem_cons_self)
  | cons next parts ih =>
      obtain ⟨hpart, hparts⟩ := List.forall_mem_cons.1 h
      rw [List.intercalate_cons_cons, List.count_append, List.count_append, ih hparts,
        List.count_eq_zero.2 hpart, List.count_singleton_self, List.length_cons]
      omega

end ReversePolish.Text
