import ReversePolish.Proofs.Machine.Faults

/-! # Replaying the last operator

`LASTOP` runs the operator that ran last, and what it remembers is that operator again.  So pushing
it comes to the same as pushing the operator by its own name (`run_push_lastop`), now and at every
push after it, whether they fail or not (`outcomes_replicate_lastop`).  This needs that `LASTOP`
itself is never remembered, which holds of every machine whatever it was called for. -/

namespace ReversePolish.Machine

variable {m : Machine} {op : Operator}

/-- What each push comes to determines what all come to, up to the first failure. -/
theorem run_pushAll_eq_of_outcomes {ts us : List Token} (h : m.outcomes ts = m.outcomes us) :
    (pushAll ts).run m = (pushAll us).run m := by
  induction ts generalizing m us with
  | nil =>
      cases us with
      | nil => rfl
      | cons u us => cases h
  | cons t ts ih =>
      cases us with
      | nil => cases h
      | cons u us =>
          obtain ⟨hpush, hrest⟩ := List.cons.inj h
          simp only [Routine.leaves, ← hpush] at hrest
          simp only [pushAll, EStateM.run_bind, ← hpush]
          cases hrun : (push t).run m with
          | ok _ next =>
              rw [hrun] at hrest
              exact ih hrest
          | error failure left => rfl

theorem run_push_lastop (h : m.lastOperator = some op) (hop : op ≠ .lastop) :
    (push (.operator .lastop)).run m = (push (.operator op)).run m := by
  rw [run_push, run_push, next_of_invokes (invokes_lastop h hop),
    next_of_invokes (invokes_self hop)]

theorem leaves_push_lastop (h : m.lastOperator = some op) (hop : op ≠ .lastop) :
    (push (.operator .lastop)).leaves m = (push (.operator op)).leaves m := by
  rw [Routine.leaves, run_push_lastop h hop]
  rfl

/-- An operator that was the last one is the last one still when it was pushed again. -/
theorem lastOperator_leaves_push (h : m.lastOperator = some op) (hop : op ≠ .lastop) :
    ((push (.operator op)).leaves m).lastOperator = some op := by
  rw [leaves_push]
  cases hnext : m.next (.operator op) with
  | ok next =>
      obtain ⟨ran, -, rfl⟩ := runs_of_invokes (invokes_self hop) hnext
      rfl
  | error failure => exact h

theorem outcomes_replicate_lastop (h : m.lastOperator = some op) (hop : op ≠ .lastop) (n : Nat) :
    m.outcomes (List.replicate n (.operator .lastop)) =
      m.outcomes (List.replicate n (.operator op)) := by
  induction n generalizing m with
  | zero => rfl
  | succ n ih =>
      have hleft := lastOperator_leaves_push h hop
      rw [List.replicate_succ, List.replicate_succ, outcomes, outcomes, run_push_lastop h hop,
        leaves_push_lastop h hop, ih hleft]

/-- **Pushing `LASTOP` is pushing the last operator.**  Whatever a machine was called for, both
succeed and leave the same machine, or both fail with the same fault and change nothing; and so it
goes on however often they are pushed, with every push and up to the first failure. -/
theorem lastop_replays (capacity : Int) (calls : List Call) (op : Operator)
    (h : (({ capacity } : Machine).after calls).lastOperator = some op) :
    let m := ({ capacity } : Machine).after calls
    ((∃ next, (push (.operator .lastop)).run m = .ok () next ∧
          (push (.operator op)).run m = .ok () next) ∨
        ∃ f, (push (.operator .lastop)).run m = .error (.fault f) m ∧
          (push (.operator op)).run m = .error (.fault f) m) ∧
      ∀ n, m.outcomes (List.replicate n (.operator .lastop)) =
          m.outcomes (List.replicate n (.operator op)) ∧
        (pushAll (List.replicate n (.operator .lastop))).run m =
          (pushAll (List.replicate n (.operator op))).run m := by
  intro m
  have hwellFormed : m.WellFormed capacity := .of_calls capacity calls
  have hop : op ≠ .lastop := (hwellFormed.lastOperator_ne op h).1
  constructor
  · rw [run_push_lastop h hop, run_push]
    cases hnext : m.next (.operator op) with
    | ok next => exact .inl ⟨next, rfl, rfl⟩
    | error failure =>
        obtain ⟨f, rfl⟩ := (next_fault hwellFormed _ failure hnext).exists
        exact .inr ⟨f, rfl, rfl⟩
  · intro n
    have houtcomes := outcomes_replicate_lastop h hop n
    exact ⟨houtcomes, run_pushAll_eq_of_outcomes houtcomes⟩

/-- `LASTARGS` is remembered like any other operator, and runs until the operands do not fit. -/
theorem lastop_replays_lastargs :
    let one : Token := .integer ⟨1, by decide, by decide⟩
    let two : Token := .integer ⟨2, by decide, by decide⟩
    let m := ({ capacity := 6 } : Machine).after
      [.push one, .push one, .push (.operator .add), .push (.operator .lastargs)]
    let full : Machine := ⟨6, [one, one, one, one, two], some .lastargs, some [one, one]⟩
    m.lastOperator = some .lastargs ∧
      (pushAll (List.replicate 2 (.operator .lastop))).run m =
        .error (.fault (.stackFull 6)) full := by
  intro one two m full
  have h : m.lastOperator = some .lastargs := by decide +kernel
  have hfits : m.next (.operator .lastargs) = .ok full := by decide +kernel
  have hfull : full.next (.operator .lastargs) = .error (.fault (.stackFull 6)) := by decide +kernel
  refine ⟨h, ?_⟩
  rw [((lastop_replays 6 _ .lastargs h).2 2).2]
  simp only [List.replicate, run_pushAll_cons]
  rw [hfits]
  dsimp only
  rw [hfull]

end ReversePolish.Machine
