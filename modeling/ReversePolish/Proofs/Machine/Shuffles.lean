import ReversePolish.Proofs.Machine.Calls
import ReversePolish.Proofs.Machine.Steps

/-! # Shuffles of the stack

`DUP`, `DROP` and `SWAP` obey the laws of stack shuffles, up to the room that they need: a full
stack refuses every token, also one that would undo what filled it (`next_of_full`).  Each push is
one step with its room in view (`next_dup`, `next_drop`, `next_swap`, and `next_of_value` for
values), and a law follows its pushes (`run_pushAll_pair`).  None of them looks at the last
operands, and what is remembered is the operator that ran last (`shuffle_laws`). -/

namespace ReversePolish.Machine

variable {m : Machine} {t u x y : Token} {rest : List Token}

/-! ### Steps -/

theorem next_dup (hstack : m.stack = t :: rest) (hroom : (m.size : Int) < m.capacity) :
    m.next (.operator .dup) =
      .ok { m with stack := t :: t :: rest, lastOperator := some .dup } :=
  next_of_runs (invokes_self (by decide)) hroom (.dup hstack)

theorem next_drop (hstack : m.stack = t :: rest) (hroom : (m.size : Int) < m.capacity) :
    m.next (.operator .drop) = .ok { m with stack := rest, lastOperator := some .drop } :=
  next_of_runs (invokes_self (by decide)) hroom (.drop hstack)

theorem next_swap (hstack : m.stack = t :: u :: rest) (hroom : (m.size : Int) < m.capacity) :
    m.next (.operator .swap) =
      .ok { m with stack := u :: t :: rest, lastOperator := some .swap } :=
  next_of_runs (invokes_self (by decide)) hroom (.swap hstack)

theorem exists_top (h : 1 ≤ m.size) : ∃ t rest, m.stack = t :: rest :=
  List.exists_cons_of_length_pos h

theorem exists_top_two (h : 2 ≤ m.size) : ∃ t u rest, m.stack = t :: u :: rest := by
  obtain ⟨t, rest, hstack⟩ := exists_top (Nat.le_of_succ_le h)
  rw [size, hstack, List.length_cons] at h
  obtain ⟨u, rest', rfl⟩ := List.exists_cons_of_length_pos (Nat.le_of_succ_le_succ h)
  exact ⟨t, u, rest', hstack⟩

/-! ### Laws -/

/-- The machine after `DUP`: its topmost token lies on its stack once more. -/
def doubled (m : Machine) : Machine :=
  { m with stack := m.stack.take 1 ++ m.stack, lastOperator := some .dup }

theorem next_dup_doubled (h : 1 ≤ m.size) (hroom : (m.size : Int) < m.capacity) :
    m.next (.operator .dup) = .ok m.doubled := by
  obtain ⟨t, rest, hstack⟩ := exists_top h
  rw [next_dup hstack hroom, doubled, hstack]
  rfl

theorem size_doubled (h : 1 ≤ m.size) : m.doubled.size = m.size + 1 := by
  obtain ⟨t, rest, hstack⟩ := exists_top h
  rw [size, size, doubled, hstack]
  rfl

theorem room_doubled (h : 1 ≤ m.size) (hroom : (m.size : Int) ≤ m.capacity - 2) :
    (m.doubled.size : Int) < m.doubled.capacity := by
  have hcapacity : m.doubled.capacity = m.capacity := rfl
  rw [size_doubled h, hcapacity]
  omega

/-- Each token on the stack needs room of its own. -/
theorem room_cons {n : Int} (hroom : (m.size : Int) ≤ m.capacity - (n + 1)) (x : Token) :
    ((x :: m.stack).length : Int) ≤ m.capacity - n := by
  rw [size] at hroom
  rw [List.length_cons]
  omega

/-- `SWAP` undoes itself. -/
theorem run_swap_swap (h : 2 ≤ m.size) (hroom : (m.size : Int) < m.capacity) :
    (pushAll [.operator .swap, .operator .swap]).run m =
      .ok () { m with lastOperator := some .swap } := by
  obtain ⟨t, u, rest, hstack⟩ := exists_top_two h
  have hroom' : ((u :: t :: rest).length : Int) < m.capacity := by rwa [size, hstack] at hroom
  rw [run_pushAll_pair (next_swap hstack hroom) (next_swap rfl hroom'), ← hstack]

/-- `DROP` undoes `DUP`. -/
theorem run_dup_drop (h : 1 ≤ m.size) (hroom : (m.size : Int) ≤ m.capacity - 2) :
    (pushAll [.operator .dup, .operator .drop]).run m =
      .ok () { m with lastOperator := some .drop } := by
  obtain ⟨t, rest, hstack⟩ := exists_top h
  have hdoubled : m.doubled.stack = t :: m.stack := by rw [doubled, hstack]; rfl
  exact run_pushAll_pair (next_dup_doubled h (by omega)) (next_drop hdoubled (room_doubled h hroom))

/-- The two tokens that `DUP` leaves on top are the same, so they may be exchanged. -/
theorem run_dup_swap (h : 1 ≤ m.size) (hroom : (m.size : Int) ≤ m.capacity - 2) :
    (pushAll [.operator .dup, .operator .swap]).run m =
      .ok () { m.doubled with lastOperator := some .swap } := by
  obtain ⟨t, rest, hstack⟩ := exists_top h
  have hdoubled : m.doubled.stack = t :: t :: rest := by rw [doubled, hstack]; rfl
  rw [run_pushAll_pair (next_dup_doubled h (by omega))
    (next_swap hdoubled (room_doubled h hroom)), ← hdoubled]

/-- `DROP` undoes a value. -/
theorem run_value_drop (hx : x.IsValue) (hroom : (m.size : Int) ≤ m.capacity - 2) :
    (pushAll [x, .operator .drop]).run m = .ok () { m with lastOperator := some .drop } := by
  have hroom' := room_cons (n := 1) hroom x
  exact run_pushAll_pair (next_of_value hx (by omega)) (next_drop rfl (by simp only [size]; omega))

/-- Two values lie on the stack in the order in which they were pushed. -/
theorem run_values (hx : x.IsValue) (hy : y.IsValue) (hroom : (m.size : Int) ≤ m.capacity - 2) :
    (pushAll [x, y]).run m = .ok () { m with stack := y :: x :: m.stack } := by
  have hroom' := room_cons (n := 1) hroom x
  exact run_pushAll_pair (next_of_value hx (by omega))
    (next_of_value hy (by simp only [size]; omega))

/-- `SWAP` exchanges them. -/
theorem run_values_swap (hx : x.IsValue) (hy : y.IsValue)
    (hroom : (m.size : Int) ≤ m.capacity - 3) :
    (pushAll [x, y, .operator .swap]).run m =
      .ok () { m with stack := x :: y :: m.stack, lastOperator := some .swap } := by
  have hroom' := room_cons (n := 2) hroom x
  refine run_pushAll_cons_ok_iff.2 ⟨_, next_of_value hx (by omega), ?_⟩
  refine run_pushAll_pair (next_of_value hy (by simp only [size]; omega)) (next_swap rfl ?_)
  simp only [size, List.length_cons] at hroom' ⊢
  omega

/-- A full machine refuses every token and stays as it is. -/
theorem run_push_of_full (h : m.capacity ≤ m.size) (t : Token) :
    (push t).run m = .error (.fault (.stackFull m.capacity)) m := by
  rw [run_push, next_of_full h]

/-- **The laws of the stack shuffles.**  `SWAP` undoes itself, `DROP` undoes `DUP` and any value,
`SWAP` changes nothing after `DUP` and exchanges two values, as long as the stack is not full before
the last of the pushes; the last operands stay as they are, and the operator that ran last is
remembered.  Where one cell is left `DUP` fills the stack, and then nothing can be pushed, be it to
shrink the stack; clearing the machine empties it. -/
theorem shuffle_laws (m : Machine) :
    (2 ≤ m.size → (m.size : Int) < m.capacity →
      (pushAll [.operator .swap, .operator .swap]).run m =
        .ok () { m with lastOperator := some .swap }) ∧
    (1 ≤ m.size → (m.size : Int) ≤ m.capacity - 2 →
      (pushAll [.operator .dup, .operator .drop]).run m =
          .ok () { m with lastOperator := some .drop } ∧
        (push (.operator .dup)).run m = .ok () m.doubled ∧
        (pushAll [.operator .dup, .operator .swap]).run m =
          .ok () { m.doubled with lastOperator := some .swap }) ∧
    (∀ x : Token, x.IsValue → (m.size : Int) ≤ m.capacity - 2 →
      (pushAll [x, .operator .drop]).run m = .ok () { m with lastOperator := some .drop }) ∧
    (∀ x y : Token, x.IsValue → y.IsValue → (m.size : Int) ≤ m.capacity - 3 →
      ∃ final, (pushAll [y, x]).run m = .ok () final ∧ final.stack = x :: y :: m.stack ∧
        final.lastOperator = m.lastOperator ∧ final.lastOperands = m.lastOperands ∧
        (pushAll [x, y, .operator .swap]).run m =
          .ok () { final with lastOperator := some .swap }) ∧
    (1 ≤ m.size → (m.size : Int) = m.capacity - 1 →
      (push (.operator .dup)).run m = .ok () m.doubled ∧
        (m.doubled.size : Int) = m.capacity ∧
        (∀ t, (push t).run m.doubled = .error (.fault (.stackFull m.capacity)) m.doubled) ∧
        clear.run m.doubled = .ok () { m.doubled with stack := [] }) := by
  refine ⟨run_swap_swap, fun h hroom => ⟨run_dup_drop h hroom, ?_, run_dup_swap h hroom⟩,
    fun x hx hroom => run_value_drop hx hroom, fun x y hx hy hroom => ?_, fun h hlast => ?_⟩
  · exact run_push_ok_iff.2 (next_dup_doubled h (by omega))
  · exact ⟨_, run_values hy hx (by omega), rfl, rfl, rfl, run_values_swap hx hy hroom⟩
  · have hfull : (m.doubled.size : Int) = m.capacity := by
      rw [size_doubled h]
      omega
    exact ⟨run_push_ok_iff.2 (next_dup_doubled h (by omega)), hfull,
      run_push_of_full (Int.le_of_eq hfull.symm), rfl⟩

/-- Two tokens with two free cells, the same with the three that exchanging two values takes, and
with a single one, where `DUP` cannot be undone. -/
theorem shuffle_laws_room :
    let one : Token := .integer ⟨1, by decide, by decide⟩
    let m : Machine := { capacity := 4, stack := [one, .float .nan] }
    let near : Machine := { capacity := 3, stack := [one, .float .nan], lastOperator := some .not }
    let full : Machine :=
      { capacity := 3, stack := [one, one, .float .nan], lastOperator := some .dup }
    (pushAll [.operator .swap, .operator .swap]).run m =
        .ok () { m with lastOperator := some .swap } ∧
      (pushAll [.operator .dup, .operator .drop]).run m =
        .ok () { m with lastOperator := some .drop } ∧
      (pushAll [.boolean true, .operator .drop]).run m =
        .ok () { m with lastOperator := some .drop } ∧
      (∃ final, (pushAll [.boolean true, one]).run { m with capacity := 5 } = .ok () final ∧
        (pushAll [one, .boolean true, .operator .swap]).run { m with capacity := 5 } =
          .ok () { final with lastOperator := some .swap }) ∧
      (push (.operator .dup)).run near = .ok () full ∧
      (push (.operator .drop)).run full = .error (.fault (.stackFull 3)) full ∧
      clear.run full = .ok () { full with stack := [] } := by
  intro one m near full
  obtain ⟨hswap, hdup, hvalue, -⟩ := shuffle_laws m
  obtain ⟨-, -, -, hvalues, -⟩ := shuffle_laws { m with capacity := 5 }
  obtain ⟨-, -, -, -, hlast⟩ := shuffle_laws near
  obtain ⟨hfills, -, hrefuses, hclears⟩ := hlast (by decide) (by decide)
  obtain ⟨final, hpushed, -, -, -, hexchanged⟩ :=
    hvalues one (.boolean true) trivial trivial (by decide)
  exact ⟨hswap (by decide) (by decide), (hdup (by decide) (by decide)).1,
    hvalue _ trivial (by decide), ⟨final, hpushed, hexchanged⟩, hfills, hrefuses _, hclears⟩

end ReversePolish.Machine
