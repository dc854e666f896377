import ReversePolish.Machine
import ReversePolish.Proofs.Evaluation.Results
import ReversePolish.Proofs.Text.Quoted
import ReversePolish.Proofs.Text.Separated

/-! # What is shown of a machine

The display of a value is not empty and holds neither a comma nor a line feed (`IsField`).  So the
display of a machine of values is one line, from which the displays of its tokens can be read off
(`splitSeparated_shown`), and it is a pair of brackets only if the stack is empty
(`display_eq_brackets_iff`). -/

namespace ReversePolish

/-- Something that stands on one line between separators. -/
structure Text.IsField (cs : List Char) : Prop where
  ne_nil : cs ≠ []
  noComma : ',' ∉ cs
  isLine : IsLine cs

instance (cs : List Char) : Decidable (Text.IsField cs) :=
  decidable_of_iff (cs ≠ [] ∧ ',' ∉ cs ∧ Text.IsLine cs)
    ⟨fun h => ⟨h.1, h.2.1, h.2.2⟩, fun h => ⟨h.ne_nil, h.noComma, h.isLine⟩⟩

namespace Token

open Text (IsField IsLine)

theorem isField_of_isFigures {cs : List Char} (h : Numeral.IsFigures cs ∧ cs ≠ []) : IsField cs :=
  ⟨h.2, fun hmem => absurd (h.1 _ hmem) (by decide), Text.isLine_of_isFigures h.1⟩

/-- The display of a value. -/
theorem isField_display {t : Token} (h : t.IsValue) : IsField t.display.toList := by
  cases t with
  | integer cell => exact isField_of_isFigures (Numeral.isFigures_int cell.value)
  | float x =>
      rw [display, Binary64.fixed, String.toList_ofList]
      exact isField_of_isFigures (Binary64.isFigures_fixedChars x)
  | boolean b => cases b <;> decide
  | _ => cases h

end Token

namespace Machine

open Text (separator splitSeparated IsField IsLine)

variable {m : Machine}

/-- What is shown between the brackets. -/
def shown (m : Machine) : List Char := separator.intercalate (m.items.map fun t => t.display.toList)

theorem toList_display (m : Machine) : m.display.toList = '[' :: (m.shown ++ [']']) := by
  rw [display, String.toList_append, String.toList_append, String.toList_intercalate, List.map_map]
  rfl

theorem isField_items (h : ∀ t ∈ m.stack, t.IsValue) :
    ∀ cs ∈ m.items.map fun t => t.display.toList, IsField cs := by
  intro cs hcs
  obtain ⟨t, ht, rfl⟩ := List.mem_map.1 hcs
  exact Token.isField_display (h t (List.mem_reverse.1 ht))

/-- **The displays of the tokens can be read off the display of the machine.** -/
theorem splitSeparated_shown (h : ∀ t ∈ m.stack, t.IsValue) (hne : m.stack ≠ []) :
    splitSeparated m.shown = m.items.map fun t => t.display.toList := by
  refine Text.splitSeparated_intercalate ?_ fun cs hcs => (isField_items h cs hcs).noComma
  rwa [ne_eq, List.map_eq_nil_iff, items, List.reverse_eq_nil_iff]

theorem shown_eq_nil_iff (h : ∀ t ∈ m.stack, t.IsValue) : m.shown = [] ↔ m.stack = [] := by
  constructor
  · intro hshown
    by_contra hne
    -- Split, an empty text would be one empty display, and no value has that.
    have hsplit := splitSeparated_shown h hne
    rw [hshown] at hsplit
    have hempty : [] ∈ m.items.map fun t => t.display.toList := hsplit ▸ List.mem_singleton_self []
    exact (isField_items h [] hempty).ne_nil rfl
  · intro hstack
    rw [shown, items, hstack]
    rfl

/-- **Only an empty stack is shown as a pair of brackets.** -/
theorem display_eq_brackets_iff (h : ∀ t ∈ m.stack, t.IsValue) :
    m.display = "[]" ↔ m.stack = [] := by
  rw [← String.toList_inj, toList_display, ← shown_eq_nil_iff h]
  constructor
  · intro hdisplay
    have hend : m.shown ++ [']'] = [] ++ [']'] := (List.cons.inj hdisplay).2
    exact List.append_cancel_right hend
  · intro hshown
    rw [hshown]
    rfl

/-- The display of a machine is one line. -/
theorem isLine_display (h : ∀ t ∈ m.stack, t.IsValue) : IsLine m.display.toList := by
  rw [toList_display]
  refine .cons (by decide) (.append ?_ (by decide))
  exact Text.isLine_intercalate (by decide) fun cs hcs => (isField_items h cs hcs).isLine

end Machine

end ReversePolish
