import ReversePolish.Proofs.Text.Quoted
import ReversePolish.Session

/-! # Lines of output

An output is a stream of lines, and what is written to one of the two streams is the text of its
lines, each ended by a line feed.  Split into lines the text gives back what was written, as long as
each text that is written is one line (`linesOf_shownText`, `linesOf_complaintText`). -/

namespace ReversePolish

open Text (IsLine)

/-- A line with the line feed that ends it. -/
def withFeed (line : String) : List Char := line.toList ++ ['\n']

theorem linesOf_cons_line {line : List Char} (h : IsLine line) (rest : List Char) :
    linesOf (line ++ '\n' :: rest) = (line ++ ['\n']) :: linesOf rest := by
  induction line with
  | nil => rfl
  | cons c line ih =>
      obtain ⟨hc, hline⟩ := List.ne_and_not_mem_of_not_mem_cons h
      rw [List.cons_append, linesOf, if_neg hc.symm, ih hline]
      rfl

theorem linesOf_flatMap_withFeed {lines : List String} (h : ∀ line ∈ lines, IsLine line.toList) :
    linesOf (lines.flatMap withFeed) = lines.map withFeed := by
  induction lines with
  | nil => rfl
  | cons line rest ih =>
      obtain ⟨hline, hrest⟩ := List.forall_mem_cons.1 h
      rw [List.flatMap_cons, List.map_cons, withFeed, List.append_assoc, List.singleton_append,
        linesOf_cons_line hline, ih hrest]

namespace Output

/-- The texts written to the standard output. -/
def shownTexts : List Output → List String :=
  List.filterMap fun
    | shown text => some text
    | complaint _ => none

/-- The texts written to the error output. -/
def complaintTexts : List Output → List String :=
  List.filterMap fun
    | shown _ => none
    | complaint text => some text

theorem shownTexts_append (a b : List Output) :
    shownTexts (a ++ b) = shownTexts a ++ shownTexts b := List.filterMap_append

theorem complaintTexts_append (a b : List Output) :
    complaintTexts (a ++ b) = complaintTexts a ++ complaintTexts b := List.filterMap_append

theorem toList_shownText (outputs : List Output) :
    (shownText outputs).toList = (shownTexts outputs).flatMap withFeed := by
  rw [shownText, String.toList_join, List.flatMap_map]
  induction outputs with
  | nil => rfl
  | cons output outputs ih =>
      rw [List.flatMap_cons, ih]
      cases output with
      | shown text => exact congrArg (· ++ _) String.toList_append
      | complaint text => rfl

theorem toList_complaintText (outputs : List Output) :
    (complaintText outputs).toList = (complaintTexts outputs).flatMap withFeed := by
  rw [complaintText, String.toList_join, List.flatMap_map]
  induction outputs with
  | nil => rfl
  | cons output outputs ih =>
      rw [List.flatMap_cons, ih]
      cases output with
      | complaint text => exact congrArg (· ++ _) String.toList_append
      | shown text => rfl

/-- **The lines of the standard output are the texts that were shown.** -/
theorem linesOf_shownText {outputs : List Output}
    (h : ∀ text ∈ shownTexts outputs, IsLine text.toList) :
    linesOf (shownText outputs).toList = (shownTexts outputs).map withFeed := by
  rw [toList_shownText, linesOf_flatMap_withFeed h]

/-- **The lines of the error output are the texts that were complained of.** -/
theorem linesOf_complaintText {outputs : List Output}
    (h : ∀ text ∈ complaintTexts outputs, IsLine text.toList) :
    linesOf (complaintText outputs).toList = (complaintTexts outputs).map withFeed := by
  rw [toList_complaintText, linesOf_flatMap_withFeed h]

end Output

end ReversePolish
