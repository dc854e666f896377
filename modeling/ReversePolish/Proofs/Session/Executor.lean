import ReversePolish.Proofs.Machine.Faults
import ReversePolish.Proofs.Session.Lines

/-! # Executing lines

A session is a run of attempts to read a line.  Where no line ends it there is one attempt for each
line and one more, at which the prompt is shown as well (`converse_lines`); what is written for the
lines does not depend on the prompt or the end (`runOptions_of_steps`).

Executing catches faults and nothing else, and nothing else comes up: from a well-formed machine
every line is fed, and the stack after it is shown (`steps_execute`).  `trail` lists the machines
after each line, whether feeding it failed or not. -/

namespace ReversePolish

open CommandLine (Options Level)

/-- The prompts of a session of so many lines: one for each, and one for the attempt that finds no
more. -/
def Route.prompts (route : Route) (count : Nat) : List Prompt :=
  match route with
  | prompted prompt => List.replicate (count + 1) prompt
  | _ => []

namespace Session

open Output (shownTexts shownTexts_append)

variable {m : Machine} {capacity : Int} {o : Options} {around : Surroundings} {line : String}
  {lines : List String}

/-! ### Attempts to read a line -/

theorem steps_nil (o : Options) (m : Machine) : steps o m [] = ([], none) := rfl

/-- A line that does not end the session is treated before the others. -/
theorem steps_cons (h : (step o m line).escaped = none) (rest : List String) :
    steps o m (line :: rest) =
      ((step o m line).outputs ++ (steps o (step o m line).machine rest).1,
        (steps o (step o m line).machine rest).2) := by
  simp only [steps, List.map_cons, converse, h]

theorem steps_cons_of_escaped {failure : Failure} (h : (step o m line).escaped = some failure)
    (rest : List String) :
    steps o m (line :: rest) = ((step o m line).outputs, some failure) := by
  simp only [steps, List.map_cons, converse, h, Ending.failure?]

theorem converse_last (o : Options) (prompt? : Option Prompt) (m : Machine) (interrupted : Bool) :
    converse o prompt? m [.last interrupted] =
      ⟨[], prompt?.toList, if interrupted then .interrupt else .endOfInput⟩ := by
  cases interrupted <;> rfl

/-- **There is an attempt for each line and one more**, if no line ends the session. -/
theorem converse_lines (h : (steps o m lines).2 = none) (prompt? : Option Prompt)
    (interrupted : Bool) :
    converse o prompt? m (lines.map .line ++ [.last interrupted]) =
      ⟨(steps o m lines).1, (List.replicate (lines.length + 1) prompt?.toList).flatten,
        if interrupted then .interrupt else .endOfInput⟩ := by
  induction lines generalizing m with
  | nil => simpa [steps_nil] using converse_last o prompt? m interrupted
  | cons line rest ih =>
      cases hescaped : (step o m line).escaped with
      -- A failure of this line would have ended the treatment of all lines as well.
      | some failure =>
          rw [steps_cons_of_escaped hescaped] at h
          cases h
      | none =>
          rw [steps_cons hescaped] at h ⊢
          rw [List.length_cons, List.replicate_succ (n := rest.length + 1), List.flatten_cons]
          simp only [List.map_cons, List.cons_append, converse, hescaped, ih h]

theorem Ending.status_ite (interrupted : Bool) :
    (if interrupted then Ending.interrupt else .endOfInput).status =
      if interrupted then 1 else 0 := by
  cases interrupted <;> rfl

theorem flatten_prompts (route : Route) (count : Nat) :
    (List.replicate (count + 1) route.prompt?.toList).flatten = route.prompts count := by
  cases route with
  | prompted prompt => exact List.flatten_replicate_singleton
  | _ => exact List.flatten_replicate_nil

/-- **What a session writes and prompts for**, by whichever route its lines come, if none of them
ends it. -/
theorem runOptions_of_steps (ho : o.task ≠ .symbols) (around : Surroundings) :
    let route := o.route (around.inputIsTerminal && around.outputIsTerminal)
    let lines := route.lines around.input
    (steps o { capacity := o.capacity } lines).2 = none →
      runOptions o around =
        ⟨if around.interrupted && route.isRead then 1 else 0,
          opening o.task ++ (steps o { capacity := o.capacity } lines).1,
          route.prompts lines.length⟩ := by
  intro route lines hsteps
  unfold runOptions
  split
  next htask => exact absurd htask ho
  · dsimp only
    rw [Route.attempts, converse_lines hsteps, Talk.transcript, Ending.status_ite, flatten_prompts]

/-! ### Executing -/

/-- The machines after each of the lines. -/
def trail (m : Machine) : List String → List Machine
  | [] => []
  | line :: rest => (Machine.feed line).leaves m :: trail ((Machine.feed line).leaves m) rest

theorem shownTexts_journalled (level : Level) (events : List Event) :
    shownTexts (journalled level events) = [] := by
  unfold journalled
  split
  · induction events with
    | nil => rfl
    | cons event events ih => exact ih
  · rfl

theorem shownTexts_complaints (level : Level) (fault : Fault) (line : String) :
    shownTexts (complaints level fault line) = [] := by
  rw [complaints, shownTexts_append, shownTexts_journalled]
  rfl

/-- A line fed to a well-formed machine leaves a machine, and its stack is shown. -/
theorem execute_eq (h : m.WellFormed capacity) (level : Level) (line : String) :
    let treated := execute level m line
    treated.machine = (Machine.feed line).leaves m ∧ treated.escaped = none ∧
      shownTexts treated.outputs = [((Machine.feed line).leaves m).display] := by
  unfold execute Routine.leaves
  rcases Machine.feed_fault h line with ⟨next, hrun⟩ | ⟨f, left, hrun⟩
  · rw [hrun]
    refine ⟨rfl, rfl, ?_⟩
    rw [shownTexts_append, shownTexts_journalled]
    rfl
  · rw [hrun]
    refine ⟨rfl, rfl, ?_⟩
    rw [shownTexts_append, shownTexts_append, shownTexts_journalled, shownTexts_complaints]
    rfl

/-- **Every line is executed**, and after each the stack is shown. -/
theorem steps_execute (h : m.WellFormed capacity) (o : Options) (lines : List String) :
    let treated := steps { o with task := .execute } m lines
    treated.2 = none ∧ shownTexts treated.1 = (trail m lines).map Machine.display := by
  induction lines generalizing m with
  | nil => exact ⟨rfl, rfl⟩
  | cons line rest ih =>
      obtain ⟨hmachine, hescaped, hshown⟩ := execute_eq h o.level line
      obtain ⟨hnone, hrest⟩ := ih (h.leaves_feed line)
      rw [steps_cons (o := { o with task := .execute }) hescaped]
      simp only [step, hmachine, shownTexts_append, hshown]
      exact ⟨hnone, congrArg (_ :: ·) hrest⟩

/-- **Nothing but faults gets out.**  Whatever a machine was called for, feeding it any text
completes or fails with a fault; so does evaluating an operator, whatever the operands; and so
executing lines comes to the end of them, the stack shown after each. -/
theorem only_faults_escape (capacity : Int) (calls : List Call) :
    let m := ({ capacity } : Machine).after calls
    (∀ text, (∃ next, (Machine.feed text).run m = .ok () next) ∨
        ∃ f left, (Machine.feed text).run m = .error (.fault f) left) ∧
      (∀ op operands, (∃ t, evaluate op operands = .ok t) ∨
        ∃ f, evaluate op operands = .error (.fault f)) ∧
      ∀ (o : Options) (lines : List String),
        let treated := steps { o with task := .execute } m lines
        treated.2 = none ∧ shownTexts treated.1 = (trail m lines).map Machine.display := by
  have h := Machine.WellFormed.of_calls capacity calls
  exact ⟨Machine.feed_fault h, evaluate_ok_or_fault, steps_execute h⟩

end Session

end ReversePolish
