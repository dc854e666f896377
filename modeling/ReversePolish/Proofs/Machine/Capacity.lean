import ReversePolish.Proofs.Machine.Calls
import ReversePolish.Proofs.Machine.Steps

/-! # The capacity that pushes need

A push looks at the capacity before anything else, and `LASTARGS` looks at it again.  So a push that
succeeds under some capacity does the same under every one that leaves room for one more token and
for the stack afterwards, and under any other it finds the stack full (`next_withCapacity`).  The
sizes of the stack on the way therefore determine the least capacity for all the pushes
(`required`): from there on they pass through the same machines (`run_pushAll_of_required_le`),
below it they end at a full stack (`run_pushAll_of_lt_required`). -/

namespace ReversePolish.Machine

variable {m next final : Machine} {op : Operator} {t : Token} {ts : List Token} {c : Int}

/-- The machine with another capacity. -/
def withCapacity (m : Machine) (c : Int) : Machine := { m with capacity := c }

/-! ### One push -/

/-- The capacity that a push needs: room for one more token, whatever it does, and for the stack
that it leaves. -/
def need (before after : Nat) : Nat := max (before + 1) after

/-- What an operator does depends on the capacity only as far as the stack fits afterwards. -/
theorem Runs.withCapacity (h : Runs m op next) (hfits : (next.size : Int) ≤ c) :
    Runs (m.withCapacity c) op (next.withCapacity c) := by
  cases h with
  | dup stack => exact .dup stack
  | drop stack => exact .drop stack
  | swap stack => exact .swap stack
  | clear => exact .clear
  | @lastargs operands recalled fits =>
      have hsize : ((m.withCapacity c).size + operands.length : Nat) ≤ c := by
        simp only [size, List.length_append, List.length_reverse] at hfits
        simp only [size, Machine.withCapacity]
        omega
      exact .lastargs recalled hsize
  | pure takes found evaluates => exact .pure takes found evaluates

/-- Where there is room for one more token but not for the stack afterwards, the operator is
`LASTARGS`, and finds that out. -/
theorem Runs.ran_withCapacity_error (h : Runs m op next) (hroom : (m.size : Int) < c)
    (hfits : c < next.size) :
    (m.withCapacity c).ran op = .error (.fault (.stackFull c)) := by
  cases h with
  | @lastargs operands recalled =>
      have hsize : c < ((m.withCapacity c).size + operands.length : Nat) := by
        simp only [size, List.length_append, List.length_reverse] at hfits
        simp only [size, Machine.withCapacity]
        omega
      have hoperands : (m.withCapacity c).lastOperands = some operands := recalled
      simp only [ran, Machine.recalled, hoperands]
      exact if_pos hsize
  | dup stack | drop stack | swap stack =>
      simp only [size, stack, List.length_cons] at hroom hfits
      omega
  | clear =>
      simp only [size, cleared, List.length_nil] at hroom hfits
      omega
  | pure takes found =>
      simp only [size, List.length_cons, List.length_drop] at hroom hfits found
      omega

/-- **A push that succeeds under one capacity, under any other**: it does the same if it gets what
it needs, and else finds the stack full. -/
theorem next_withCapacity (h : m.next t = .ok next) (c : Int) :
    (m.withCapacity c).next t =
      if (need m.size next.size : Int) ≤ c then .ok (next.withCapacity c)
      else .error (.fault (.stackFull c)) := by
  by_cases hroom : (m.size : Int) < c
  · have hneed : (need m.size next.size : Int) ≤ c ↔ (next.size : Int) ≤ c := by
      unfold need
      omega
    simp only [hneed]
    rcases next_cases h with ⟨-, ⟨ht, rfl⟩ | ⟨named, op, ran, ht, hresolved, hruns, rfl⟩⟩
    · have hfits : ((m.stack.length + 1 : Nat) : Int) ≤ c := by
        simp only [size] at hroom
        omega
      exact (next_of_value ht hroom).trans (if_pos hfits).symm
    · have hinvokes : (m.withCapacity c).Invokes t op := ⟨named, ht, hresolved⟩
      split
      next hfits => exact next_of_runs hinvokes hroom (hruns.withCapacity hfits)
      next hfits =>
        have hran := hruns.ran_withCapacity_error hroom (Int.not_le.1 hfits)
        have hroom' : ¬ (m.withCapacity c).capacity ≤ (m.withCapacity c).size := Int.not_le.2 hroom
        rw [next_of_invokes hinvokes, if_neg hroom', applied, hran]
        rfl
  · have hneed : ¬ (need m.size next.size : Int) ≤ c := by
      unfold need
      omega
    rw [if_neg hneed]
    exact next_of_full (Int.not_lt.1 hroom) t

/-! ### All pushes -/

/-- The least capacity under which a stack can go through sizes: what the neediest push needs. -/
def required : List Nat → Nat
  | before :: after :: later => max (need before after) (required (after :: later))
  | _ => 0

theorem stages_eq_cons (m : Machine) (ts : List Token) :
    ∃ later, m.stages ts = m :: later := by cases ts <;> exact ⟨_, rfl⟩

theorem stages_cons_of_ok (h : m.next t = .ok next) (ts : List Token) :
    m.stages (t :: ts) = m :: next.stages ts := by rw [stages, h]

theorem required_stages_cons (h : m.next t = .ok next) (ts : List Token) :
    required ((m.stages (t :: ts)).map size) =
      max (need m.size next.size) (required ((next.stages ts).map size)) := by
  obtain ⟨later, hlater⟩ := stages_eq_cons next ts
  rw [stages_cons_of_ok h, hlater]
  rfl

/-- With the capacity that they need, the pushes pass through the same machines. -/
theorem run_pushAll_of_required_le (h : (pushAll ts).run m = .ok () final)
    (hc : (required ((m.stages ts).map size) : Int) ≤ c) :
    (pushAll ts).run (m.withCapacity c) = .ok () (final.withCapacity c) ∧
      (m.withCapacity c).stages ts = (m.stages ts).map (·.withCapacity c) := by
  induction ts generalizing m with
  | nil => cases h; exact ⟨rfl, rfl⟩
  | cons t ts ih =>
      obtain ⟨next, hnext, hrun⟩ := run_pushAll_cons_ok_iff.1 h
      rw [required_stages_cons hnext] at hc
      have hneed : (need m.size next.size : Int) ≤ c := by omega
      have hcnext := next_withCapacity hnext c
      rw [if_pos hneed] at hcnext
      obtain ⟨hrest, hstages⟩ := ih hrun (by omega)
      refine ⟨run_pushAll_cons_ok_iff.2 ⟨_, hcnext, hrest⟩, ?_⟩
      rw [stages_cons_of_ok hcnext, stages_cons_of_ok hnext, hstages]
      rfl

/-- Without it, one of the pushes finds the stack full. -/
theorem run_pushAll_of_lt_required (h : (pushAll ts).run m = .ok () final)
    (hempty : ts = [] → 0 ≤ c) (hc : c < required ((m.stages ts).map size)) :
    ∃ left, (pushAll ts).run (m.withCapacity c) = .error (.fault (.stackFull c)) left := by
  induction ts generalizing m with
  | nil =>
      have hnonneg := hempty rfl
      simp only [stages, List.map_cons, List.map_nil, required] at hc
      omega
  | cons t ts ih =>
      obtain ⟨next, hnext, hrun⟩ := run_pushAll_cons_ok_iff.1 h
      rw [required_stages_cons hnext] at hc
      rw [run_pushAll_cons, next_withCapacity hnext]
      by_cases hneed : (need m.size next.size : Int) ≤ c
      · have hnonneg : 0 ≤ c := by omega
        rw [if_pos hneed]
        exact ih hrun (fun _ => hnonneg) (by omega)
      · rw [if_neg hneed]
        exact ⟨_, rfl⟩

/-- **The least capacity for pushes.**  Tokens that are all pushed to a new machine of some
capacity are all pushed to one of another exactly if it has room for what the neediest of them
needs, which the sizes of the stack on the way determine.  Then both pass through the same stacks
and registers; and if it has less, the first push that fails finds the stack full. -/
theorem capacity_threshold (ts : List Token) (hts : ts ≠ []) (enough : Int) (final : Machine)
    (h : (pushAll ts).run { capacity := enough } = .ok () final) :
    let stages := ({ capacity := enough } : Machine).stages ts
    let least := required (stages.map size)
    ∀ c : Int,
      ((∃ other, (pushAll ts).run { capacity := c } = .ok () other) ↔ (least : Int) ≤ c) ∧
        ((least : Int) ≤ c →
          ({ capacity := c } : Machine).stages ts = stages.map (·.withCapacity c)) ∧
        (c < least →
          ∃ left, (pushAll ts).run { capacity := c } = .error (.fault (.stackFull c)) left) := by
  intro stages least c
  have henough (hc : (least : Int) ≤ c) := run_pushAll_of_required_le h hc
  have hshort (hc : c < least) := run_pushAll_of_lt_required h (fun hnil => absurd hnil hts) hc
  refine ⟨⟨?_, fun hc => ⟨_, (henough hc).1⟩⟩, fun hc => (henough hc).2, hshort⟩
  rintro ⟨other, hrun⟩
  by_contra hc
  obtain ⟨left, herror⟩ := hshort (Int.not_le.1 hc)
  cases hrun.symm.trans herror

/-- The stack never holds more than three tokens, but a full one would refuse `DROP`. -/
theorem capacity_threshold_drop :
    let one : Token := .integer ⟨1, by decide, by decide⟩
    let two : Token := .integer ⟨2, by decide, by decide⟩
    let ts : List Token :=
      [one, one, .operator .add, .operator .lastargs, .operator .drop]
    let final : Machine := ⟨4096, [one, two], some .drop, some [one, one]⟩
    (pushAll ts).run { capacity := 4096 } = .ok () final ∧
      (({ capacity := 4096 } : Machine).stages ts).map size = [0, 1, 2, 1, 3, 2] ∧
      (∃ other, (pushAll ts).run { capacity := 4 } = .ok () other) ∧
      ∃ left, (pushAll ts).run { capacity := 3 } = .error (.fault (.stackFull 3)) left := by
  intro one two ts final
  have hrun : (pushAll ts).run { capacity := 4096 } = .ok () final := by rfl
  have hsizes : (({ capacity := 4096 } : Machine).stages ts).map size = [0, 1, 2, 1, 3, 2] := by
    decide +kernel
  have hthreshold := capacity_threshold ts (by simp [ts]) 4096 final hrun
  simp only [hsizes] at hthreshold
  exact ⟨hrun, hsizes, (hthreshold 4).1.2 (by decide), (hthreshold 3).2.2 (by decide)⟩

end ReversePolish.Machine
