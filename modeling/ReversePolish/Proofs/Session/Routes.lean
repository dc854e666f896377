import ReversePolish.Proofs.Session.Folding

/-! # Routes

Lines that are executed come piped, with their line feeds, or prompted, without; the last line of
the input may lack its line feed either way.  A line feed is a blank, so it makes no difference to
the tokens of a line (`Machine.tokensOf_withFeed`), and unless the journal is kept nothing else of
the line is told (`steps_answers`).  By both routes the outputs are the `answers` to the lines, and
an expression is answered like the one line of its words (`routes_agree`). -/

namespace ReversePolish

open CommandLine (Options Level)
open Text (IsLine)

/-! ### Lines of a text -/

/-- A text of lines, each ended by a line feed; the last need not be, if it is not empty. -/
inductive IsTextOf : List String → List Char → Prop
  | nil : IsTextOf [] []
  | last {line : String} (hline : IsLine line.toList) (hne : line.toList ≠ []) :
      IsTextOf [line] line.toList
  | cons {line : String} {rest : List String} {text : List Char} (hline : IsLine line.toList)
      (hrest : IsTextOf rest text) : IsTextOf (line :: rest) (line.toList ++ '\n' :: text)

/-- A line as it is read: with the line feed that ended it, or without one. -/
def IsReadAs (raw : List Char) (line : String) : Prop :=
  IsLine line.toList ∧ (raw = line.toList ∨ raw = withFeed line)

theorem linesOf_line {line : List Char} (h : IsLine line) (hne : line ≠ []) :
    linesOf line = [line] := by
  induction line with
  | nil => exact absurd rfl hne
  | cons c line ih =>
      obtain ⟨hc, hline⟩ := List.ne_and_not_mem_of_not_mem_cons h
      rw [linesOf, if_neg hc.symm]
      cases line with
      | nil => rfl
      | cons d line => rw [ih hline (List.cons_ne_nil d line)]

theorem linesOf_text {lines : List String} {text : List Char} (h : IsTextOf lines text) :
    List.Forall₂ IsReadAs (linesOf text) lines := by
  induction h with
  | nil => exact .nil
  | last hline hne =>
      rw [linesOf_line hline hne]
      exact .cons ⟨hline, .inl rfl⟩ .nil
  | cons hline _ ih =>
      rw [linesOf_cons_line hline]
      exact .cons ⟨hline, .inr rfl⟩ ih

theorem withoutFeed_line {line : List Char} (h : IsLine line) : withoutFeed line = line :=
  List.filter_eq_self.2 fun _ hc => decide_eq_true fun heq => h (heq ▸ hc)

/-- Without the line feed a line is what was read. -/
theorem IsReadAs.withoutFeed_eq {raw : List Char} {line : String} (h : IsReadAs raw line) :
    withoutFeed raw = line.toList := by
  obtain ⟨hline, rfl | rfl⟩ := h
  · exact withoutFeed_line hline
  · rw [withFeed, withoutFeed, List.filter_append]
    exact (List.append_nil _).trans (withoutFeed_line hline)

theorem Machine.tokensOf_withFeed (line : String) :
    tokensOf (String.ofList (withFeed line)) = tokensOf line := by
  have htext : String.ofList (withFeed line) = line ++ '\n'.toString ++ "" := by
    apply String.toList_inj.1
    simp [withFeed]
  have hnone : tokensOf "" = [] := tokensOf_eq_nil (by simp [Text.words, Text.wordsOf])
  rw [htext, tokensOf_append_blank (by decide), hnone, List.append_nil]

theorem IsReadAs.tokensOf_eq {raw : List Char} {line : String} (h : IsReadAs raw line) :
    Machine.tokensOf (String.ofList raw) = Machine.tokensOf line := by
  obtain ⟨-, rfl | rfl⟩ := h
  · rw [String.ofList_toList]
  · exact Machine.tokensOf_withFeed line

/-- By either route the lines that are read hold the tokens of the lines. -/
theorem Route.lines_isRead {route : Route} (hroute : route.isRead) {input : String}
    {lines : List String} (h : IsTextOf lines input.toList) :
    List.Forall₂ (fun raw line => Machine.tokensOf raw = Machine.tokensOf line)
      (route.lines input) lines := by
  have hread := linesOf_text h
  cases route with
  | expression line => cases hroute
  | prompted prompt =>
      refine List.forall₂_map_left_iff.2 (hread.imp fun raw line hline => ?_)
      rw [hline.withoutFeed_eq, String.ofList_toList]
  | piped => exact List.forall₂_map_left_iff.2 (hread.imp fun raw line hline => hline.tokensOf_eq)

/-- Lines are executed, and the journal is not kept. -/
structure CommandLine.Options.Executes (o : Options) : Prop where
  task : o.task = .execute
  level : o.level ≠ .debug

namespace Session

variable {m : Machine} {capacity : Int} {o : Options}

/-! ### Answers -/

/-- What a line is answered with: the message of the fault, if it fails, and then the stack. -/
def answer (m : Machine) (line : String) : List Output :=
  (match (Machine.feed line).failure? m with
    | some (.fault fault) => [.complaint fault.message]
    | _ => []) ++ [.shown ((Machine.feed line).leaves m).display]

/-- What lines are answered with, one after the other. -/
def answers (m : Machine) : List String → List Output
  | [] => []
  | line :: rest => answer m line ++ answers ((Machine.feed line).leaves m) rest

/-- The answers depend on the tokens of the lines only. -/
theorem answers_congr {raws lines : List String}
    (h : List.Forall₂ (fun raw line => Machine.tokensOf raw = Machine.tokensOf line) raws lines)
    (m : Machine) : answers m raws = answers m lines := by
  induction h generalizing m with
  | nil => rfl
  | @cons raw line raws lines htokens _ ih =>
      have hrun : (Machine.feed raw).run m = (Machine.feed line).run m := by
        rw [Machine.run_feed, Machine.run_feed, htokens]
      rw [answers, answers, ih, answer, answer]
      simp only [Routine.failure?, Routine.leaves, hrun]

theorem execute_answer (h : m.WellFormed capacity) {level : Level} (hlevel : level ≠ .debug)
    (line : String) :
    execute level m line = ⟨(Machine.feed line).leaves m, answer m line, none⟩ := by
  unfold execute answer Routine.failure? Routine.leaves
  rcases Machine.feed_fault h line with ⟨next, hrun⟩ | ⟨f, left, hrun⟩
  · simp only [hrun, journalled_eq_nil hlevel]
  · simp only [hrun, complaints, journalled_eq_nil hlevel]
    rfl

/-- **Executing lines gives the answers to them**, and comes to their end. -/
theorem steps_answers (h : m.WellFormed capacity) (ho : o.Executes) (lines : List String) :
    steps o m lines = (answers m lines, none) := by
  induction lines generalizing m with
  | nil => rfl
  | cons line rest ih =>
      have hstep : step o m line = ⟨(Machine.feed line).leaves m, answer m line, none⟩ := by
        rw [step, ho.task]
        exact execute_answer h ho.level line
      rw [steps_cons (by rw [hstep]), hstep, ih (h.leaves_feed line), answers]

/-! ### Sessions -/

/-- A session that executes writes the answers to its lines. -/
theorem runOptions_executes (ho : o.Executes) (around : Surroundings) :
    let route := o.route (around.inputIsTerminal && around.outputIsTerminal)
    (runOptions o around).outputs =
        answers { capacity := o.capacity } (route.lines around.input) ∧
      (runOptions o around).status = if around.interrupted && route.isRead then 1 else 0 := by
  intro route
  have hsteps := steps_answers (.new o.capacity) ho (route.lines around.input)
  have htask : o.task ≠ .symbols := by
    rw [ho.task]
    decide
  rw [runOptions_of_steps htask around (congrArg Prod.snd hsteps), hsteps, ho.task]
  exact ⟨rfl, rfl⟩

/-- Whichever way lines are read, the answers to them are written, and the status tells the end of
the input from an interrupt. -/
theorem runOptions_reads (ho : o.Executes) {around : Surroundings}
    (hroute : (o.route (around.inputIsTerminal && around.outputIsTerminal)).isRead)
    {lines : List String} (htext : IsTextOf lines around.input.toList) :
    (runOptions o around).outputs = answers { capacity := o.capacity } lines ∧
      (runOptions o around).status = if around.interrupted then 1 else 0 := by
  obtain ⟨houtputs, hstatus⟩ := runOptions_executes ho around
  rw [houtputs, answers_congr (Route.lines_isRead hroute htext), hstatus, hroute, Bool.and_true]
  exact ⟨rfl, rfl⟩

/-- The words of an expression make one line. -/
theorem runOptions_expression (ho : o.Executes) (around : Surroundings) {words : List String}
    (hwords : o.expression = some words) :
    (runOptions o around).outputs =
        answers { capacity := o.capacity } [" ".intercalate words] ∧
      (runOptions o around).status = 0 := by
  obtain ⟨houtputs, hstatus⟩ := runOptions_executes ho around
  rw [houtputs, hstatus]
  simp only [Options.route, hwords, Route.isRead, Bool.and_false]
  exact ⟨rfl, rfl⟩

/-- **All routes agree.**  Piped and prompted, the same lines are answered alike, and an expression
is answered like the one line of its words, with a line feed after it or without. -/
theorem routes_agree {o o' : Options} (ho : o.Executes) (ho' : o'.Executes)
    (hcapacity : o'.capacity = o.capacity) (around around' : Surroundings)
    (hpiped : o.route (around.inputIsTerminal && around.outputIsTerminal) = .piped) :
    (∀ lines prompt, IsTextOf lines around.input.toList → IsTextOf lines around'.input.toList →
        o'.route (around'.inputIsTerminal && around'.outputIsTerminal) = .prompted prompt →
        around'.interrupted = around.interrupted →
          (runOptions o around).outputs = answers { capacity := o.capacity } lines ∧
            (runOptions o' around').outputs = (runOptions o around).outputs ∧
            (runOptions o around).status = (if around.interrupted then 1 else 0) ∧
            (runOptions o' around').status = (runOptions o around).status) ∧
      ∀ words, o'.expression = some words →
        IsTextOf [" ".intercalate words] around.input.toList →
          (runOptions o' around').outputs = (runOptions o around).outputs ∧
            (runOptions o' around').status = 0 := by
  have hread : (o.route (around.inputIsTerminal && around.outputIsTerminal)).isRead := by
    rw [hpiped]
    rfl
  constructor
  · intro lines prompt htext htext' hprompted hinterrupted
    have hread' : (o'.route (around'.inputIsTerminal && around'.outputIsTerminal)).isRead := by
      rw [hprompted]
      rfl
    obtain ⟨houtputs, hstatus⟩ := runOptions_reads ho hread htext
    obtain ⟨houtputs', hstatus'⟩ := runOptions_reads ho' hread' htext'
    rw [houtputs, houtputs', hstatus, hstatus', hcapacity, hinterrupted]
    exact ⟨rfl, rfl, rfl, rfl⟩
  · intro words hwords htext
    obtain ⟨houtputs, -⟩ := runOptions_reads ho hread htext
    obtain ⟨houtputs', hstatus'⟩ := runOptions_expression ho' around' hwords
    rw [houtputs, houtputs', hcapacity]
    exact ⟨rfl, hstatus'⟩

/-- A line that fails, an empty one and one without its line feed, up to an interrupt; and an
expression against a line without its line feed. -/
theorem routes_agree_interrupted :
    let piped := runOptions { capacity := 3 } { input := "1 0 DIV 7\n\n2", interrupted := true }
    let prompted := runOptions { capacity := 3, prompt := some "? " }
      { input := "1 0 DIV 7\n\n2\n", interrupted := true }
    let line := runOptions { capacity := 3 } { input := "1 2 +" }
    let expression := runOptions { capacity := 3, expression := some ["1", "2", "+"] } {}
    prompted.outputs = piped.outputs ∧
      piped.outputs = [.complaint "Division by zero", .shown "[1, 0]", .shown "[1, 0]",
        .shown "[1, 0, 2]"] ∧
      piped.status = 1 ∧ prompted.status = 1 ∧
      expression.outputs = line.outputs ∧ expression.status = 0 := by
  intro piped prompted line expression
  have hpiped : IsTextOf ["1 0 DIV 7", "", "2"] "1 0 DIV 7\n\n2".toList :=
    .cons (by decide) (.cons (by decide) (.last (by decide) (by decide)))
  have hprompted : IsTextOf ["1 0 DIV 7", "", "2"] "1 0 DIV 7\n\n2\n".toList :=
    .cons (by decide) (.cons (by decide) (.cons (by decide) .nil))
  have hplain : ({ capacity := 3 } : Options).Executes := ⟨rfl, by decide⟩
  have hprompt : ({ capacity := 3, prompt := some "? " } : Options).Executes := ⟨rfl, by decide⟩
  have hexpression : ({ capacity := 3, expression := some ["1", "2", "+"] } : Options).Executes :=
    ⟨rfl, by decide⟩
  obtain ⟨hread, -⟩ := routes_agree hplain hprompt rfl
    { input := "1 0 DIV 7\n\n2", interrupted := true }
    { input := "1 0 DIV 7\n\n2\n", interrupted := true } rfl
  obtain ⟨houtputs, hsame, hstatus, hstatus'⟩ := hread _ (.ofText "? ") hpiped hprompted rfl rfl
  obtain ⟨-, hwords⟩ := routes_agree hplain hexpression rfl { input := "1 2 +" } {} rfl
  obtain ⟨hline, hzero⟩ := hwords ["1", "2", "+"] rfl (.last (by decide) (by decide))
  exact ⟨hsame, houtputs.trans (by decide +kernel), hstatus, hstatus'.trans hstatus, hline, hzero⟩

end Session

end ReversePolish
