import ReversePolish.Proofs.Machine.Calls
import ReversePolish.Proofs.Machine.Steps

/-! # The memory registers and the history

The history of a machine lists the pushes that succeeded, the newest first, each with the stack that
it found.  It knows nothing of the registers: the operator that a push ran is read off it
(`lastResolved`), through any number of `LASTOP`s, and so are the operands that were taken off the
stack last (`lastTaken`).  The registers hold just these (`Remembers`): a push that succeeds keeps
it so (`Remembers.push`), hence every call does (`Remembers.record`), and after all calls the
registers are what the history says (`registers_eq_history`). -/

namespace ReversePolish

/-- A push that succeeded. -/
structure Performed where
  token : Token
  /-- The stack before the push, the topmost token first. -/
  found : List Token
deriving DecidableEq

/-- The operator that the newest operator token of a history ran: the one it names, or for `LASTOP`
the one that the operator token before it ran. -/
def lastResolved : List Performed → Option Operator
  | [] => none
  | ⟨.operator .lastop, _⟩ :: earlier => lastResolved earlier
  | ⟨.operator op, _⟩ :: _ => some op
  | _ :: earlier => lastResolved earlier

/-- The operator that a push ran, if its token is one of an operator. -/
def Performed.resolved (p : Performed) (earlier : List Performed) : Option Operator :=
  match p.token with
  | .operator _ => lastResolved (p :: earlier)
  | _ => none

/-- The operands, the lowest first, that the newest operator with operands took off the stack. -/
def lastTaken : List Performed → Option (List Token)
  | [] => none
  | p :: earlier =>
      match p.resolved earlier with
      | some op =>
          if op.isStructural then lastTaken earlier else some (p.found.take op.arity).reverse
      | none => lastTaken earlier

theorem lastResolved_operator {op : Operator} (hop : op ≠ .lastop) (found : List Token)
    (earlier : List Performed) : lastResolved (⟨.operator op, found⟩ :: earlier) = some op := by
  cases op with
  | lastop => exact absurd rfl hop
  | _ => rfl

theorem lastResolved_value {t : Token} (ht : t.IsValue) (found : List Token)
    (earlier : List Performed) : lastResolved (⟨t, found⟩ :: earlier) = lastResolved earlier := by
  cases t with
  | operator op => cases ht
  | _ => rfl

theorem lastTaken_value {t : Token} (ht : t.IsValue) (found : List Token)
    (earlier : List Performed) : lastTaken (⟨t, found⟩ :: earlier) = lastTaken earlier := by
  cases t with
  | operator op => cases ht
  | _ => rfl

namespace Machine

variable {m next : Machine} {op : Operator} {t : Token} {past : List Performed}

/-! ### The history of calls -/

/-- The history after pushing tokens up to the first failure. -/
def recordAll (m : Machine) (past : List Performed) : List Token → List Performed
  | [] => past
  | t :: ts =>
      match (push t).run m with
      | .ok _ next => next.recordAll (⟨t, m.stack⟩ :: past) ts
      | .error _ _ => past

/-- The history after a call. -/
def record (m : Machine) (past : List Performed) : Call → List Performed
  | .push t => m.recordAll past [t]
  | .feed text => m.recordAll past (tokensOf text)
  | .clear => past

/-- The history after calls. -/
def history (m : Machine) (past : List Performed) : List Call → List Performed
  | [] => past
  | call :: rest => history (call.routine.leaves m) (m.record past call) rest

theorem recordAll_cons (t : Token) (ts : List Token) (m : Machine) (past : List Performed) :
    m.recordAll past (t :: ts) =
      match m.next t with
      | .ok next => next.recordAll (⟨t, m.stack⟩ :: past) ts
      | .error _ => past := by
  rw [recordAll, run_push]
  cases m.next t <;> rfl

/-! ### What the registers hold -/

/-- The two memory registers. -/
def registers (m : Machine) : Option Operator × Option (List Token) :=
  (m.lastOperator, m.lastOperands)

/-- The registers hold what the history says. -/
structure Remembers (m : Machine) (past : List Performed) : Prop where
  lastOperator : m.lastOperator = lastResolved past
  lastOperands : m.lastOperands = lastTaken past

/-- Only operators with operands change the last operands. -/
theorem Runs.lastOperands_eq (h : Runs m op next) :
    next.lastOperands =
      if op.isStructural then m.lastOperands else some (m.operands op.arity) := by
  cases h with
  | pure takes => simp [Operator.isStructural, takes]
  | _ => rfl

theorem Remembers.lastResolved_eq (h : Remembers m past) (ht : m.Invokes t op)
    (found : List Token) : lastResolved (⟨t, found⟩ :: past) = some op := by
  obtain ⟨named, rfl, hresolved⟩ := ht
  rcases resolved_cases hresolved with ⟨hnamed, rfl⟩ | ⟨rfl, hlast⟩
  · exact lastResolved_operator hnamed found past
  · exact h.lastOperator.symm.trans hlast

theorem Remembers.lastTaken_eq (h : Remembers m past) (ht : m.Invokes t op) (found : List Token) :
    lastTaken (⟨t, found⟩ :: past) =
      if op.isStructural then lastTaken past else some (found.take op.arity).reverse := by
  have hresolved : Performed.resolved ⟨t, found⟩ past = some op := by
    have hlast := h.lastResolved_eq ht found
    obtain ⟨named, rfl, -⟩ := ht
    exact hlast
  rw [lastTaken, hresolved]

/-- **A push that succeeds leaves in the registers what the history says with that push.** -/
theorem Remembers.push (h : Remembers m past) (hnext : m.next t = .ok next) :
    Remembers next (⟨t, m.stack⟩ :: past) := by
  rcases next_cases hnext with ⟨-, ⟨hvalue, rfl⟩ | ⟨named, op, ran, ht, hresolved, hruns, rfl⟩⟩
  -- a value counts for neither register, an operator for the first, and for the second if it takes
  · constructor
    · rw [lastResolved_value hvalue]
      exact h.lastOperator
    · rw [lastTaken_value hvalue]
      exact h.lastOperands
  · have hinvokes : m.Invokes t op := ⟨named, ht, hresolved⟩
    constructor
    · rw [h.lastResolved_eq hinvokes]
    · rw [h.lastTaken_eq hinvokes, ← h.lastOperands]
      exact hruns.lastOperands_eq

theorem Remembers.recordAll (h : Remembers m past) (ts : List Token) :
    Remembers ((pushAll ts).leaves m) (m.recordAll past ts) := by
  induction ts generalizing m past with
  | nil => exact h
  | cons t ts ih =>
      rw [recordAll_cons, Routine.leaves, run_pushAll_cons]
      cases hnext : m.next t with
      | ok next => exact ih (h.push hnext)
      | error failure => exact h

theorem Remembers.record (h : Remembers m past) (call : Call) :
    Remembers (call.routine.leaves m) (m.record past call) := by
  cases call with
  | push t =>
      change Remembers ((Machine.push t).leaves m) _
      rw [Routine.leaves, ← run_pushAll_singleton]
      exact h.recordAll [t]
  | feed text =>
      change Remembers ((feed text).leaves m) _
      rw [Routine.leaves, run_feed]
      exact h.recordAll (tokensOf text)
  | clear => exact ⟨h.lastOperator, h.lastOperands⟩

theorem Remembers.after (h : Remembers m past) (calls : List Call) :
    Remembers (m.after calls) (m.history past calls) := by
  induction calls generalizing m past with
  | nil => exact h
  | cons call calls ih => exact ih (h.record call)

/-! ### What leaves the registers as they are -/

theorem registers_leaves_push (h : t.isOperator = false ∨ (push t).failure? m ≠ none) :
    ((push t).leaves m).registers = m.registers := by
  rw [leaves_push]
  cases hnext : m.next t with
  | error failure => rfl
  | ok next =>
      rcases next_cases hnext with ⟨-, ⟨-, rfl⟩ | ⟨op, -, -, rfl, -⟩⟩
      · rfl
      · rcases h with hliteral | hfails
        · cases hliteral
        · rw [Routine.failure?, run_push, hnext] at hfails
          exact absurd rfl hfails

theorem lastOperands_leaves_push (ht : m.Invokes t op) (hop : op.isStructural) :
    ((push t).leaves m).lastOperands = m.lastOperands := by
  rw [leaves_push]
  cases hnext : m.next t with
  | error failure => rfl
  | ok next =>
      obtain ⟨ran, hruns, rfl⟩ := runs_of_invokes ht hnext
      have hran := hruns.lastOperands_eq
      rwa [if_pos hop] at hran

/-- `LASTARGS` puts the last operands back on the stack as they lay. -/
theorem items_of_lastargs (ht : m.Invokes t .lastargs) (hnext : m.next t = .ok next) :
    ∃ operands, m.lastOperands = some operands ∧ next.items = m.items ++ operands := by
  obtain ⟨ran, hruns, rfl⟩ := runs_of_invokes ht hnext
  cases hruns with
  | @lastargs operands recalled =>
      refine ⟨operands, recalled, ?_⟩
      simp only [items, List.reverse_append, List.reverse_reverse]
  | pure takes => exact absurd rfl takes

/-- **The registers hold what the history says.**  After any calls, whether they failed or not, the
last operator is the one that the newest operator push ran, and the last operands are those that
the newest operator with operands found on top of the stack.  Values, pushes that fail and clearing
leave both registers as they are, operators on the stack itself the last operands; and `LASTARGS`,
where it succeeds, puts just these operands on top of the stack in their order. -/
theorem registers_eq_history (capacity : Int) (calls : List Call) :
    let m := ({ capacity } : Machine).after calls
    let past := history { capacity } [] calls
    m.registers = (lastResolved past, lastTaken past) ∧
      (∀ t, t.isOperator = false ∨ (push t).failure? m ≠ none →
        ((push t).leaves m).registers = m.registers) ∧
      (clear.leaves m).registers = m.registers ∧
      (∀ t op, m.Invokes t op → op.isStructural →
        ((push t).leaves m).lastOperands = m.lastOperands) ∧
      ∀ t next, m.Invokes t .lastargs → (push t).run m = .ok () next →
        ∃ operands, lastTaken past = some operands ∧ next.items = m.items ++ operands := by
  intro m past
  have hnew : Remembers { capacity } [] := ⟨rfl, rfl⟩
  have h : Remembers m past := hnew.after calls
  refine ⟨Prod.ext h.lastOperator h.lastOperands, fun _ => registers_leaves_push, rfl,
    fun _ _ => lastOperands_leaves_push, ?_⟩
  intro t next ht hrun
  rw [← h.lastOperands]
  exact items_of_lastargs ht (run_push_ok_iff.1 hrun)

/-- Operands that lie below three more runs, one of them a `LASTOP`, a failure and a clearing. -/
theorem registers_eq_history_recalled :
    let two : Token := .integer ⟨2, by decide, by decide⟩
    let seven : Token := .integer ⟨7, by decide, by decide⟩
    let calls : List Call :=
      [.push seven, .push two, .push (.operator .sub), .push (.operator .dup),
        .push (.operator .lastop), .push (.boolean true), .push (.operator .add), .clear,
        .push (.boolean false)]
    let m := ({} : Machine).after calls
    let next : Machine := ⟨4096, [two, seven, .boolean false], some .lastargs, some [seven, two]⟩
    m.registers = (some .dup, some [seven, two]) ∧
      ((push (.operator .undo)).leaves m).registers = m.registers ∧
      ((push (.operator .swap)).leaves m).lastOperands = m.lastOperands ∧
      (push (.operator .lastargs)).run m = .ok () next ∧ next.items = m.items ++ [seven, two] := by
  intro two seven calls m next
  obtain ⟨hregisters, hkept, -, hstructural, hrecalls⟩ := registers_eq_history defaultCapacity calls
  have hundo : (push (.operator .undo)).failure? m ≠ none := by decide +kernel
  have hrun : (push (.operator .lastargs)).run m = .ok () next :=
    run_push_ok_iff.2 (by decide +kernel)
  obtain ⟨operands, htaken, hitems⟩ := hrecalls _ next (invokes_self (by decide)) hrun
  refine ⟨?_, hkept _ (.inr hundo), hstructural _ .swap (invokes_self (by decide)) rfl, hrun, ?_⟩
  · rw [hregisters]
    decide +kernel
  · have hoperands : operands = [seven, two] := by
      apply Option.some.inj
      rw [← htaken]
      decide +kernel
    rw [hitems, hoperands]

end Machine

end ReversePolish
