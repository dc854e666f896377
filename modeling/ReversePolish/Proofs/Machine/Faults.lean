import ReversePolish.Proofs.Evaluation.Reporting
import ReversePolish.Proofs.Machine.WellFormed

/-! # Failures of a machine

A well-formed machine fails only with faults.  Taking operands off the stack and looking into it
never miss a place, because the size was asked for before, which `next` shows; resolving never
meets the assertion, because `LASTOP` is not remembered; and evaluating reports all its trouble.  So
neither a push (`next_fault`) nor a fed text (`feed_fault`) lets anything else out. -/

namespace ReversePolish

/-- The user is told of the failure. -/
def Failure.IsFault : Failure → Prop
  | fault _ => True
  | trouble _ => False

theorem Failure.IsFault.exists {failure : Failure} (h : failure.IsFault) :
    ∃ f, failure = .fault f := by
  cases failure with
  | fault f => exact ⟨f, rfl⟩
  | trouble t => cases h

theorem evaluate_fault (op : Operator) (operands : List Token) :
    FailsOnly Failure.IsFault (evaluate op operands) := by
  rcases evaluate_ok_or_fault op operands with ⟨t, h⟩ | ⟨f, h⟩
  · rw [h]
    exact .ok t
  · rw [h]
    exact .error trivial

namespace Machine

open Failure (IsFault)

variable {m : Machine} {capacity : Int}

theorem resolved_fault (h : m.WellFormed capacity) (op : Operator) :
    FailsOnly IsFault (m.resolved op) := by
  unfold resolved
  split
  · split
    · exact .error trivial
    next last hlast => exact if_neg (h.lastOperator_ne last hlast).1 ▸ .ok last
  · exact .ok op

theorem ran_fault (m : Machine) (op : Operator) : FailsOnly IsFault (m.ran op) := by
  have hoperated : FailsOnly IsFault (m.operated op) := by
    unfold operated
    split
    · exact .error trivial
    · intro failure h
      cases hevaluate : evaluate op (m.operands op.arity) with
      | ok result => rw [hevaluate] at h; cases h
      | error failure' =>
          rw [hevaluate] at h
          cases h
          exact evaluate_fault _ _ _ hevaluate
  cases op with
  | dup =>
      simp only [ran, duplicated]
      split
      · exact .error trivial
      · exact .ok _
  | drop =>
      simp only [ran, dropped]
      split
      · exact .error trivial
      · exact .ok _
  | swap =>
      simp only [ran, swapped]
      split
      · exact .ok _
      · exact .error trivial
  | clear => exact .ok _
  | lastargs =>
      simp only [ran, recalled]
      split
      · exact .error trivial
      · split
        · exact .error trivial
        · exact .ok _
  | lastop | undo | redo => exact .error trivial
  | _ => exact hoperated

/-- A push to a well-formed machine fails only with a fault. -/
theorem next_fault (h : m.WellFormed capacity) (t : Token) : FailsOnly IsFault (m.next t) := by
  unfold next
  split
  · exact .error trivial
  cases t with
  | operator op => exact .bind (resolved_fault h op) fun resolved _ => (ran_fault m resolved).map
  | unresolved spelling => exact .error trivial
  | ignored => exact .error trivial
  | _ => exact .ok _

theorem pushAll_fault (h : m.WellFormed capacity) (ts : List Token) {failure : Failure}
    {left : Machine} (hrun : (pushAll ts).run m = .error failure left) : failure.IsFault := by
  induction ts generalizing m with
  | nil => cases hrun
  | cons t ts ih =>
      rw [run_pushAll_cons] at hrun
      cases hnext : m.next t with
      | ok next =>
          rw [hnext] at hrun
          exact ih (h.push hnext) hrun
      | error failure' =>
          rw [hnext] at hrun
          cases hrun
          exact next_fault h t _ hnext

/-- A text fed to a well-formed machine is pushed to its end, or up to a fault. -/
theorem feed_fault (h : m.WellFormed capacity) (text : String) :
    (∃ next, (feed text).run m = .ok () next) ∨
      ∃ f left, (feed text).run m = .error (.fault f) left := by
  cases hrun : (feed text).run m with
  | ok _ next => exact .inl ⟨next, rfl⟩
  | error failure left =>
      rw [run_feed] at hrun
      obtain ⟨f, rfl⟩ := (pushAll_fault h _ hrun).exists
      exact .inr ⟨f, left, rfl⟩

end Machine

end ReversePolish
