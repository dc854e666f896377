import ReversePolish.Proofs.Lexicon.Classification
import ReversePolish.Proofs.Machine.Transition

/-! # Calls

A machine is used by calls: tokens are pushed, texts are fed, the stack is cleared.  `after` is the
machine after calls, whether they failed or not.  Feeding a text is pushing tokens up to the first
failure, and a push that fails changes nothing; so what every push that succeeds keeps, and
clearing keeps (`IsInvariant`), holds after all calls (`IsInvariant.after`). -/

namespace ReversePolish

/-- What a machine is called for. -/
inductive Call where
  | push (t : Token)
  | feed (text : String)
  | clear
deriving DecidableEq

/-- The routine that a call runs. -/
def Call.routine : Call → Routine Unit
  | push t => Machine.push t
  | feed text => Machine.feed text
  | clear => Machine.clear

/-- Every token that the call pushes is one of `T`. -/
def Call.PushesOnly (T : Token → Prop) : Call → Prop
  | push t => T t
  | feed text => ∀ word ∈ Text.words text, T (Lexicon.tokenOf word)
  | clear => True

theorem Call.pushesOnly_true (call : Call) : call.PushesOnly fun _ => True := by
  cases call with
  | feed text => exact fun _ _ => trivial
  | _ => trivial

namespace Machine

variable {m next : Machine} {t : Token} {T : Token → Prop} {P : Machine → Prop}

/-- The machine after calls, whether they fail or not. -/
def after (m : Machine) (calls : List Call) : Machine :=
  calls.foldl (fun m call => call.routine.leaves m) m

/-! ### Pushing and feeding -/

theorem run_push (t : Token) (m : Machine) :
    (push t).run m =
      match m.next t with
      | .ok next => .ok () next
      | .error failure => .error failure m := by
  rw [push_eq_ofTransition]
  exact Routine.run_ofTransition _ m

theorem leaves_push (t : Token) (m : Machine) :
    (push t).leaves m =
      match m.next t with
      | .ok next => next
      | .error _ => m := by
  rw [Routine.leaves, run_push]
  cases m.next t <;> rfl

theorem run_pushAll_cons (t : Token) (ts : List Token) (m : Machine) :
    (pushAll (t :: ts)).run m =
      match m.next t with
      | .ok next => (pushAll ts).run next
      | .error failure => .error failure m := by
  rw [pushAll, EStateM.run_bind, run_push]
  cases m.next t <;> rfl

theorem run_push_ok_iff : (push t).run m = .ok () next ↔ m.next t = .ok next := by
  rw [run_push]
  cases m.next t <;> simp

theorem run_pushAll_cons_ok_iff {ts : List Token} {final : Machine} :
    (pushAll (t :: ts)).run m = .ok () final ↔
      ∃ next, m.next t = .ok next ∧ (pushAll ts).run next = .ok () final := by
  rw [run_pushAll_cons]
  cases m.next t <;> simp

/-- Two pushes that succeed one after the other. -/
theorem run_pushAll_pair {u : Token} {final : Machine} (ht : m.next t = .ok next)
    (hu : next.next u = .ok final) : (pushAll [t, u]).run m = .ok () final :=
  run_pushAll_cons_ok_iff.2 ⟨next, ht, run_pushAll_cons_ok_iff.2 ⟨final, hu, rfl⟩⟩

/-- Pushing one token is a push. -/
theorem run_pushAll_singleton (t : Token) (m : Machine) : (pushAll [t]).run m = (push t).run m := by
  rw [run_pushAll_cons, run_push]
  cases m.next t <;> rfl

/-- The machines that pushing tokens passes through, up to the first failure. -/
def stages (m : Machine) : List Token → List Machine
  | [] => [m]
  | t :: ts =>
      m :: match m.next t with
        | .ok next => stages next ts
        | .error _ => []

theorem mem_stages_self (m : Machine) (ts : List Token) : m ∈ m.stages ts := by
  cases ts <;> exact List.mem_cons_self

/-- The machine that is left is one of them. -/
theorem leaves_pushAll_mem_stages (m : Machine) (ts : List Token) :
    (pushAll ts).leaves m ∈ m.stages ts := by
  induction ts generalizing m with
  | nil => exact List.mem_cons_self
  | cons t ts ih =>
      rw [Routine.leaves, run_pushAll_cons, stages]
      cases m.next t with
      | ok next => exact List.mem_cons_of_mem m (ih next)
      | error failure => exact List.mem_cons_self

/-- What each push comes to, one after the other, whether those before it failed or not. -/
def outcomes (m : Machine) : List Token → List (EStateM.Result Failure Machine Unit)
  | [] => []
  | t :: ts => (push t).run m :: ((push t).leaves m).outcomes ts

/-- The tokens of a text that are pushed when it is fed. -/
def tokensOf (text : String) : List Token :=
  ((Text.words text).map Lexicon.tokenOf).filter Token.isLegitimate

/-- Feeding a text is pushing its tokens. -/
theorem run_feed (text : String) (m : Machine) :
    (feed text).run m = (pushAll (tokensOf text)).run m := by
  rw [feed, EStateM.run_bind, Lexicon.parse_eq]
  rfl

/-! ### Invariants -/

/-- Kept by every push of a token of `T` and by clearing. -/
structure IsInvariant (T : Token → Prop) (P : Machine → Prop) : Prop where
  push : ∀ {m next t}, P m → T t → m.next t = .ok next → P next
  clear : ∀ {m}, P m → P m.cleared

theorem IsInvariant.leaves_push (h : IsInvariant T P) (hm : P m) (ht : T t) :
    P ((Machine.push t).leaves m) := by
  rw [Machine.leaves_push]
  cases hnext : m.next t with
  | ok next => exact h.push hm ht hnext
  | error failure => exact hm

theorem IsInvariant.leaves_pushAll (h : IsInvariant T P) {ts : List Token} (hts : ∀ t ∈ ts, T t)
    (hm : P m) : P ((pushAll ts).leaves m) := by
  induction ts generalizing m with
  | nil => exact hm
  | cons t ts ih =>
      rw [Routine.leaves, run_pushAll_cons]
      cases hnext : m.next t with
      | ok next =>
          exact ih (fun u hu => hts u (List.mem_cons_of_mem t hu))
            (h.push hm (hts t List.mem_cons_self) hnext)
      | error failure => exact hm

theorem IsInvariant.leaves (h : IsInvariant T P) {call : Call} (hcall : call.PushesOnly T)
    (hm : P m) : P (call.routine.leaves m) := by
  cases call with
  | push t => exact h.leaves_push hm hcall
  | feed text =>
      change P ((feed text).leaves m)
      rw [Routine.leaves, run_feed]
      refine h.leaves_pushAll (fun t ht => ?_) hm
      obtain ⟨word, hword, rfl⟩ := List.mem_map.1 (List.mem_filter.1 ht).1
      exact hcall word hword
  | clear => exact h.clear hm

/-- **What every push keeps holds after all calls.** -/
theorem IsInvariant.after (h : IsInvariant T P) (hm : P m) {calls : List Call}
    (hcalls : ∀ call ∈ calls, call.PushesOnly T) : P (m.after calls) := by
  induction calls generalizing m with
  | nil => exact hm
  | cons call calls ih =>
      exact ih (h.leaves (hcalls call List.mem_cons_self) hm)
        fun c hc => hcalls c (List.mem_cons_of_mem call hc)

end Machine

end ReversePolish
