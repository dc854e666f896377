import ReversePolish.Proofs.Evaluation.Shape
import ReversePolish.Proofs.Machine.Faults

/-! # Outlines of machines

The outline of a machine has shapes in place of tokens, and is a machine of its own: every test that
a push makes is one of sizes and shapes, and `Outline.next` makes the same ones.  A push follows its
outline (`next_follows`).  So machines of one outline that are pushed tokens of the same shapes keep
to one outline and fail alike (`outcomes_sameControl`), as long as the numbers have results; and
whether a push fails for another reason never depends on them (`raised?_push_iff`). -/

namespace ReversePolish

open Fault (Category)

/-- A machine without the values of its tokens. -/
structure Outline where
  capacity : Int
  /-- The shapes of the tokens, that of the topmost first. -/
  stack : List Shape
  lastOperator : Option Operator
  lastOperands : Option (List Shape)
deriving DecidableEq

/-! ### Pushing shapes -/

namespace Outline

/-- The shapes of the operands of an operator that takes `n`, the lowest first. -/
def operands (o : Outline) (n : Nat) : List Shape := (o.stack.take n).reverse

/-- The outline after a pure operator. -/
def operated (o : Outline) (op : Operator) : Except Category Outline :=
  if o.stack.length < op.arity then .error .arity
  else
    (evaluateShape op (o.operands op.arity)).map fun result =>
      { o with
        stack := result :: o.stack.drop op.arity
        lastOperands := some (o.operands op.arity) }

/-- The outline after `LASTARGS`. -/
def recalled (o : Outline) : Except Category Outline :=
  match o.lastOperands with
  | none => .error .noLastOperator
  | some operands =>
      if o.capacity < (o.stack.length + operands.length : Nat) then .error .stackFull
      else .ok { o with stack := operands.reverse ++ o.stack }

/-- The outline after an operator that was resolved. -/
def ran (o : Outline) (op : Operator) : Except Category Outline :=
  match op with
  | .dup =>
      match o.stack with
      | [] => .error .emptyStack
      | s :: rest => .ok { o with stack := s :: s :: rest }
  | .drop =>
      match o.stack with
      | [] => .error .emptyStack
      | _ :: rest => .ok { o with stack := rest }
  | .swap =>
      match o.stack with
      | s :: u :: rest => .ok { o with stack := u :: s :: rest }
      | _ => .error .arity
  | .clear => .ok { o with stack := [] }
  | .lastargs => o.recalled
  | op => if op.isStructural then .error .notSupported else o.operated op

/-- The operator that runs in place of one. -/
def resolved (o : Outline) (op : Operator) : Except Category Operator :=
  if op = .lastop then
    match o.lastOperator with
    | none => .error .noLastOperator
    | some last => .ok last
  else .ok op

/-- The outline after an operator that was resolved and is remembered. -/
def applied (o : Outline) (op : Operator) : Except Category Outline :=
  (o.ran op).map fun next => { next with lastOperator := some op }

/-- The outline after a push. -/
def next (o : Outline) (s : Shape) : Except Category Outline :=
  if o.capacity ≤ o.stack.length then .error .stackFull
  else
    match s with
    | .operator op => (o.resolved op).bind o.applied
    | .unresolved | .ignored => .error .type
    | s => .ok { o with stack := s :: o.stack }

end Outline

namespace Machine

variable {m m' : Machine} {t t' : Token} {ts ts' : List Token} {capacity capacity' : Int}

def outline (m : Machine) : Outline where
  capacity := m.capacity
  stack := m.stack.map Token.shape
  lastOperator := m.lastOperator
  lastOperands := m.lastOperands.map (·.map Token.shape)

/-! ### Following the outline -/

theorem outline_operands (m : Machine) (n : Nat) :
    m.outline.operands n = (m.operands n).map Token.shape := by
  simp only [Outline.operands, outline, operands, List.map_reverse, List.map_take]

theorem capacity_outline (m : Machine) : m.outline.capacity = m.capacity := rfl

theorem length_outline_stack (m : Machine) : m.outline.stack.length = m.size := List.length_map ..

theorem operated_follows (m : Machine) (op : Operator) :
    Follows outline (m.operated op) (m.outline.operated op) := by
  unfold operated Outline.operated
  rw [length_outline_stack, outline_operands]
  split
  · exact .error _
  · have hfollows := evaluate_follows op (m.operands op.arity)
    cases hforeseen : evaluateShape op ((m.operands op.arity).map Token.shape) with
    | error c =>
        rw [hforeseen] at hfollows
        obtain ⟨f, hf, rfl⟩ := hfollows.of_error
        rw [hf]
        exact .error f
    | ok s =>
        rw [hforeseen] at hfollows
        rcases hfollows.of_ok with ⟨result, hresult, rfl⟩ | ⟨f, hf, hnumerical⟩
        · rw [hresult]
          exact .ok_of_eq (by simp only [outline, List.map_cons, List.map_drop, Option.map_some])
        · rw [hf]
          exact .numerical hnumerical _

theorem recalled_follows (m : Machine) : Follows outline m.recalled m.outline.recalled := by
  unfold recalled Outline.recalled
  rw [length_outline_stack]
  cases hoperands : m.lastOperands with
  | none =>
      simp only [outline, hoperands, Option.map_none]
      exact .error _
  | some operands =>
      simp only [outline, hoperands, Option.map_some, List.length_map]
      split
      · exact .error _
      · exact .ok_of_eq (by simp only [outline, List.map_append, List.map_reverse, Option.map_some])

theorem ran_follows (m : Machine) (op : Operator) :
    Follows outline (m.ran op) (m.outline.ran op) := by
  obtain ⟨capacity, stack, lastOperator, lastOperands⟩ := m
  cases op with
  | dup =>
      cases stack with
      | nil => exact .error _
      | cons t rest => exact .ok _
  | drop =>
      cases stack with
      | nil => exact .error _
      | cons t rest => exact .ok _
  | swap =>
      match stack with
      | [] => exact .error _
      | [t] => exact .error _
      | t :: u :: rest => exact .ok _
  | clear => exact .ok _
  | lastargs => exact recalled_follows _
  | lastop | undo | redo => exact .error _
  | _ => exact operated_follows _ _

theorem applied_follows (m : Machine) (op : Operator) :
    Follows outline (m.applied op) (m.outline.applied op) :=
  (ran_follows m op).map fun _ => rfl

/-- A name is resolved the same in the outline. -/
theorem resolved_outline (h : m.WellFormed capacity) (op : Operator) :
    (∃ resolved, m.resolved op = .ok resolved ∧ m.outline.resolved op = .ok resolved) ∨
      m.resolved op = .error (.fault .noLastOperator) ∧
        m.outline.resolved op = .error .noLastOperator := by
  unfold resolved Outline.resolved
  split
  · cases hlast : m.lastOperator with
    | none => exact .inr ⟨rfl, by simp only [outline, hlast]⟩
    | some last =>
        have hne := (h.lastOperator_ne last hlast).1
        exact .inl ⟨last, by simp only [if_neg hne], by simp only [outline, hlast]⟩
  · exact .inl ⟨op, rfl, rfl⟩

/-- **A push follows the outline.** -/
theorem next_follows (h : m.WellFormed capacity) (t : Token) :
    Follows outline (m.next t) (m.outline.next t.shape) := by
  unfold next Outline.next
  rw [length_outline_stack, capacity_outline]
  split
  · exact .error _
  cases t with
  | operator op =>
      simp only [Token.shape]
      rcases resolved_outline h op with ⟨resolved, hop, hop'⟩ | ⟨hop, hop'⟩
      · rw [hop, hop']
        exact applied_follows m resolved
      · rw [hop, hop']
        exact .error .noLastOperator
  | unresolved spelling => exact .error _
  | ignored => exact .error _
  | _ => exact .ok _

/-- What a push comes to, by the outline: a fault that it names, or a machine of its outline if the
numbers have a result. -/
theorem push_follows (h : m.WellFormed capacity) (t : Token) :
    match m.outline.next t.shape with
    | .error c => ∃ f, (push t).run m = .error (.fault f) m ∧ f.category = c
    | .ok o =>
        (∃ next, (push t).run m = .ok () next ∧ next.outline = o) ∨
          ∃ f, (push t).run m = .error (.fault f) m ∧ f.category.IsNumerical := by
  have hfollows := next_follows h t
  rw [run_push]
  cases hforeseen : m.outline.next t.shape with
  | error c =>
      rw [hforeseen] at hfollows
      obtain ⟨f, hf, hcategory⟩ := hfollows.of_error
      exact ⟨f, by rw [hf], hcategory⟩
  | ok o =>
      rw [hforeseen] at hfollows
      rcases hfollows.of_ok with ⟨next, hnext, houtline⟩ | ⟨f, hf, hnumerical⟩
      · exact .inl ⟨next, by rw [hnext], houtline⟩
      · exact .inr ⟨f, by rw [hf], hnumerical⟩

/-! ### Two machines of one outline -/

/-- What a push comes to. -/
abbrev Outcome := EStateM.Result Failure Machine Unit

/-- The category of the fault that a push ended in. -/
def raised? : Outcome → Option Category
  | .error (.fault f) _ => some f.category
  | _ => none

/-- The operands had values without a result. -/
def StopsNumerically (r : Outcome) : Prop := ∃ c ∈ raised? r, c.IsNumerical

instance (r : Outcome) : Decidable (StopsNumerically r) :=
  inferInstanceAs (Decidable (∃ c ∈ raised? r, c.IsNumerical))

/-- Two pushes succeeded both or raised faults of one category, and left machines of one outline. -/
inductive SameControl : Outcome → Outcome → Prop
  | ok {next next' : Machine} (h : next.outline = next'.outline) :
      SameControl (.ok () next) (.ok () next')
  | error {f f' : Fault} {left left' : Machine} (hcategory : f.category = f'.category)
      (h : left.outline = left'.outline) :
      SameControl (.error (.fault f) left) (.error (.fault f') left')

theorem stopsNumerically_error {f : Fault} (h : f.category.IsNumerical) (left : Machine) :
    StopsNumerically (.error (.fault f) left) := ⟨f.category, rfl, h⟩

/-- Pushes of one shape to machines of one outline do the same if the numbers have results. -/
theorem push_sameControl (hm : m.WellFormed capacity) (hm' : m'.WellFormed capacity')
    (h : m.outline = m'.outline) (ht : t.shape = t'.shape)
    (hr : ¬ StopsNumerically ((push t).run m)) (hr' : ¬ StopsNumerically ((push t').run m')) :
    SameControl ((push t).run m) ((push t').run m') := by
  have hpush := push_follows hm t
  have hpush' := push_follows hm' t'
  rw [← h, ← ht] at hpush'
  cases hforeseen : m.outline.next t.shape with
  | error c =>
      rw [hforeseen] at hpush hpush'
      obtain ⟨f, hf, hcategory⟩ := hpush
      obtain ⟨f', hf', hcategory'⟩ := hpush'
      rw [hf, hf']
      exact .error (hcategory.trans hcategory'.symm) h
  | ok o =>
      rw [hforeseen] at hpush hpush'
      rcases hpush with ⟨next, hnext, houtline⟩ | ⟨f, hf, hnumerical⟩
      · rcases hpush' with ⟨next', hnext', houtline'⟩ | ⟨f', hf', hnumerical'⟩
        · rw [hnext, hnext']
          exact .ok (houtline.trans houtline'.symm)
        · rw [hf'] at hr'
          exact absurd (stopsNumerically_error hnumerical' m') hr'
      · rw [hf] at hr
        exact absurd (stopsNumerically_error hnumerical m) hr

/-- A fault that is not numerical is the outline's. -/
theorem raised?_push_iff (hm : m.WellFormed capacity) (t : Token) {c : Category}
    (hc : ¬ c.IsNumerical) :
    raised? ((push t).run m) = some c ↔ m.outline.next t.shape = .error c := by
  have hpush := push_follows hm t
  cases hforeseen : m.outline.next t.shape with
  | error c' =>
      rw [hforeseen] at hpush
      obtain ⟨f, hf, rfl⟩ := hpush
      simp only [hf, raised?, Option.some.injEq, Except.error.injEq]
  | ok o =>
      rw [hforeseen] at hpush
      rcases hpush with ⟨next, hnext, -⟩ | ⟨f, hf, hnumerical⟩
      · simp only [hnext, raised?, reduceCtorEq]
      · simp only [hf, raised?, Option.some.injEq, reduceCtorEq, iff_false]
        rintro rfl
        exact hc hnumerical

theorem SameControl.leaves_push (h : SameControl ((push t).run m) ((push t').run m')) :
    ((push t).leaves m).outline = ((push t').leaves m').outline := by
  unfold Routine.leaves
  generalize (push t).run m = r at h ⊢
  generalize (push t').run m' = r' at h ⊢
  cases h with
  | ok h => exact h
  | error _ h => exact h

/-- **Machines of one outline keep to one outline, and fail alike**, as long as the numbers have
results. -/
theorem outcomes_sameControl (hm : m.WellFormed capacity) (hm' : m'.WellFormed capacity')
    (h : m.outline = m'.outline) (hts : ts.map Token.shape = ts'.map Token.shape) (n : Nat)
    (hr : ∀ r ∈ (m.outcomes ts).take n, ¬ StopsNumerically r)
    (hr' : ∀ r ∈ (m'.outcomes ts').take n, ¬ StopsNumerically r) :
    List.Forall₂ SameControl ((m.outcomes ts).take n) ((m'.outcomes ts').take n) ∧
      ∀ c : Category, ¬ c.IsNumerical →
        ((m.outcomes ts)[n]?.bind raised? = some c ↔
          (m'.outcomes ts')[n]?.bind raised? = some c) := by
  induction ts generalizing m m' ts' n with
  | nil =>
      obtain rfl : ts' = [] := by simpa using hts.symm
      simp [outcomes]
  | cons t ts ih =>
      obtain ⟨t', ts', rfl, ht, hts⟩ := List.map_eq_cons_iff.1 hts.symm
      cases n with
      | zero =>
          refine ⟨.nil, ?_⟩
          intro c hc
          simp only [outcomes, List.getElem?_cons_zero, Option.bind_some]
          rw [raised?_push_iff hm t hc, raised?_push_iff hm' t' hc, h, ht]
      | succ n =>
          simp only [outcomes, List.take_succ_cons, List.forall_mem_cons] at hr hr'
          have hpush := push_sameControl hm hm' h ht.symm hr.1 hr'.1
          have hleft := (isInvariant_wellFormed capacity).leaves_push hm (t := t) trivial
          have hleft' := (isInvariant_wellFormed capacity').leaves_push hm' (t := t') trivial
          obtain ⟨hsame, hnext⟩ := ih hleft hleft' hpush.leaves_push hts.symm n hr.2 hr'.2
          simp only [outcomes, List.take_succ_cons, List.getElem?_cons_succ]
          exact ⟨.cons hpush hsame, hnext⟩

/-- **The numbers do not decide what is done.**  Take two machines, whatever they were called for,
and two lists of tokens that differ at most in the values of numbers and truth values.  As long as
no push, on either, ends because the numbers have no result, each push succeeds on both machines or
raises faults of one category on both, and leaves machines that differ at most in such values; and
the next push raises a fault of any other category on both or on neither. -/
theorem shape_determines_control (capacity capacity' : Int) (calls calls' : List Call)
    (ts ts' : List Token)
    (hmachines : (({ capacity := capacity } : Machine).after calls).outline =
      (({ capacity := capacity' } : Machine).after calls').outline)
    (htokens : ts.map Token.shape = ts'.map Token.shape) (n : Nat) :
    let outcomes := (({ capacity := capacity } : Machine).after calls).outcomes ts
    let outcomes' := (({ capacity := capacity' } : Machine).after calls').outcomes ts'
    (∀ r ∈ outcomes.take n ++ outcomes'.take n, ¬ StopsNumerically r) →
      List.Forall₂ SameControl (outcomes.take n) (outcomes'.take n) ∧
        ∀ c : Category, ¬ c.IsNumerical →
          (outcomes[n]?.bind raised? = some c ↔ outcomes'[n]?.bind raised? = some c) := by
  intro outcomes outcomes' hr
  obtain ⟨hr, hr'⟩ := List.forall_mem_append.1 hr
  exact outcomes_sameControl (.of_calls capacity calls) (.of_calls capacity' calls') hmachines
    htokens n hr hr'

/-- Two integers and two doubles without a finite sum: a truth value is no operand for either sum,
and both machines are full at the same push. -/
theorem shape_determines_control_full :
    let one : Token := .integer ⟨1, by decide, by decide⟩
    let calls : List Call := [.push one, .push one]
    let calls' : List Call := [.push (.float .nan), .push (.float (.infinite true))]
    let m := ({ capacity := 4 } : Machine).after calls
    let m' := ({ capacity := 4 } : Machine).after calls'
    let ts (b : Bool) : List Token :=
      [.operator .add, .boolean b, .operator .mul, .operator .lastargs, .operator .drop]
    m.outline = m'.outline ∧
      (∀ r ∈ (m.outcomes (ts true)).take 4 ++ (m'.outcomes (ts false)).take 4,
        ¬ StopsNumerically r) ∧
      List.Forall₂ SameControl ((m.outcomes (ts true)).take 4) ((m'.outcomes (ts false)).take 4) ∧
      (m'.outcomes (ts false))[4]?.bind raised? = some .stackFull := by
  intro one calls calls' m m' ts
  have hmachines : m.outline = m'.outline := by decide +kernel
  have hr : ∀ r ∈ (m.outcomes (ts true)).take 4 ++ (m'.outcomes (ts false)).take 4,
      ¬ StopsNumerically r := by decide +kernel
  obtain ⟨hsame, hraises⟩ :=
    shape_determines_control 4 4 calls calls' (ts true) (ts false) hmachines rfl 4 hr
  refine ⟨hmachines, hr, hsame, (hraises .stackFull (by decide)).1 ?_⟩
  decide +kernel

end Machine

end ReversePolish
