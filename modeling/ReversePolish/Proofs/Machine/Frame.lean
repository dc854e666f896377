import ReversePolish.Proofs.Machine.Calls
import ReversePolish.Proofs.Machine.Steps

/-! # The tokens below

A machine does not look at what lies below the tokens that it works on.  `above` puts tokens under
those of a machine and gives it as much more room; every test of a size then shifts along.  So an
operator other than `CLEAR` does the same on the machine above (`Runs.above`), a push does
(`next_above`), and so do pushes none of which clears (`run_pushAll_above`). -/

namespace ReversePolish.Machine

variable {m next final : Machine} {op : Operator} {t : Token} {ts : List Token}

/-! ### The machine above -/

/-- The machine with tokens, the lowest first, below its own, and as much more room. -/
def above (m : Machine) (below : List Token) : Machine :=
  { m with
    capacity := m.capacity + below.length
    stack := m.stack ++ below.reverse }

variable {below : List Token}

theorem items_above (m : Machine) (below : List Token) :
    (m.above below).items = below ++ m.items := by
  simp only [items, above, List.reverse_append, List.reverse_reverse]

theorem size_above (m : Machine) (below : List Token) :
    (m.above below).size = m.size + below.length := by
  simp only [size, above, List.length_append, List.length_reverse]

theorem room_above : ((m.above below).size : Int) < (m.above below).capacity ↔
    (m.size : Int) < m.capacity := by
  rw [size_above]
  simp only [above]
  omega

theorem stack_above_of_cons {rest : List Token} (h : m.stack = t :: rest) (below : List Token) :
    (m.above below).stack = t :: (rest ++ below.reverse) := by
  simp only [above, h, List.cons_append]

/-- The operands of the machine above are the machine's own, if it has so many. -/
theorem operands_above {n : Nat} (h : n ≤ m.size) : (m.above below).operands n = m.operands n := by
  simp only [operands, above, List.take_append_of_le_length h]

theorem Invokes.above (h : m.Invokes t op) : (m.above below).Invokes t op := h

theorem Runs.above (h : Runs m op next) (hop : op ≠ .clear) (below : List Token) :
    Runs (m.above below) op (next.above below) := by
  cases h with
  | dup stack => exact .dup (stack_above_of_cons stack below)
  | drop stack => exact .drop (stack_above_of_cons stack below)
  | swap stack => exact .swap (stack_above_of_cons stack below)
  | clear => exact absurd rfl hop
  | @lastargs operands recalled fits =>
      -- the one operator that tests the capacity again: both sides of the test shift along
      have hfits : ((m.above below).size + operands.length : Nat) ≤ (m.above below).capacity := by
        rw [size_above]
        simp only [Machine.above]
        omega
      have hruns := Runs.lastargs (m := m.above below) recalled hfits
      simpa only [Machine.above, List.append_assoc] using hruns
  | @pure _ result takes found evaluates =>
      -- the operands lie in the machine's own part, so they are the same
      have hfound : op.arity ≤ (m.above below).size := by
        rw [size_above]
        omega
      rw [← operands_above found] at evaluates
      have hruns := Runs.pure takes hfound evaluates
      rw [operands_above found] at hruns
      simpa only [Machine.above, List.drop_append_of_le_length found, List.cons_append] using hruns

/-- **A push does the same on the machine above**, unless it clears. -/
theorem next_above (h : m.next t = .ok next) (hclear : ¬ m.Invokes t .clear)
    (below : List Token) : (m.above below).next t = .ok (next.above below) := by
  rcases next_cases h with ⟨hroom, ⟨ht, rfl⟩ | ⟨named, op, ran, ht, hresolved, hruns, rfl⟩⟩
  · rw [next_of_value ht (room_above.2 hroom)]
    rfl
  · have hinvokes : m.Invokes t op := ⟨named, ht, hresolved⟩
    have hop : op ≠ .clear := by
      rintro rfl
      exact hclear hinvokes
    rw [next_of_runs hinvokes.above (room_above.2 hroom) (hruns.above hop below)]
    rfl

/-- One of the pushes clears the stack, by the name of `CLEAR` or through `LASTOP`. -/
def ExecutesClear (m : Machine) : List Token → Prop
  | [] => False
  | t :: ts => m.Invokes t .clear ∨ ((push t).leaves m).ExecutesClear ts

instance decidableExecutesClear (m : Machine) : (ts : List Token) → Decidable (m.ExecutesClear ts)
  | [] => isFalse id
  | t :: ts =>
      have := decidableExecutesClear ((push t).leaves m) ts
      inferInstanceAs (Decidable (m.Invokes t .clear ∨ ((push t).leaves m).ExecutesClear ts))

theorem run_pushAll_above (h : (pushAll ts).run m = .ok () final) (hclear : ¬ m.ExecutesClear ts)
    (below : List Token) : (pushAll ts).run (m.above below) = .ok () (final.above below) := by
  induction ts generalizing m with
  | nil => cases h; rfl
  | cons t ts ih =>
      obtain ⟨next, hnext, hrun⟩ := run_pushAll_cons_ok_iff.1 h
      obtain ⟨hfirst, hrest⟩ := not_or.1 hclear
      rw [leaves_push, hnext] at hrest
      exact run_pushAll_cons_ok_iff.2
        ⟨next.above below, next_above hnext hfirst below, ih hrun hrest⟩

/-- **What lies below is never touched.**  Tokens that are all pushed to a machine, and none of
which clears the stack, are all pushed to the machine with other tokens below its own and as much
more room; there they leave the same registers, and the same tokens above those others. -/
theorem frame_law (m final : Machine) (ts below : List Token)
    (h : (pushAll ts).run m = .ok () final) (hclear : ¬ m.ExecutesClear ts) :
    ∃ deep, (pushAll ts).run (m.above below) = .ok () deep ∧ deep.items = below ++ final.items ∧
      deep.lastOperator = final.lastOperator ∧ deep.lastOperands = final.lastOperands :=
  ⟨final.above below, run_pushAll_above h hclear below, items_above final below, rfl, rfl⟩

/-- The operands come back twice, the second time through `LASTOP`, and fill the stack. -/
theorem frame_law_recalled :
    let one : Token := .integer ⟨1, by decide, by decide⟩
    let two : Token := .integer ⟨2, by decide, by decide⟩
    let m : Machine := { capacity := 6, stack := [.boolean true] }
    let ts : List Token :=
      [one, one, .operator .add, .operator .lastargs, .operator .lastop]
    let final : Machine :=
      ⟨6, [one, one, one, one, two, .boolean true], some .lastargs, some [one, one]⟩
    let below : List Token := [.float .nan, two]
    (pushAll ts).run m = .ok () final ∧ ¬ m.ExecutesClear ts ∧
      ∃ deep, (pushAll ts).run (m.above below) = .ok () deep ∧
        deep.items = below ++ final.items := by
  intro one two m ts final below
  have hrun : (pushAll ts).run m = .ok () final := by rfl
  have hclear : ¬ m.ExecutesClear ts := by decide +kernel
  obtain ⟨deep, hdeep, hitems, -⟩ := frame_law m final ts below hrun hclear
  exact ⟨hrun, hclear, deep, hdeep, hitems⟩

end ReversePolish.Machine
