import ReversePolish.Proofs.CommandLine.Exclusion
import ReversePolish.Proofs.Session.Table

/-! # Prompting

`prompting` is a session that shows a prompt, whatever the options say of one: before each attempt
to read a line, and the first that no line comes of is the last one.  As no line ends a session,
there is one attempt for each line and one more (`prompting_eq`); this is what a session by the
route of a prompt does (`runOptions_prompted`).

A prompt that was given is the one that is shown unless it is empty (`prompt_given_iff`): an empty
one is taken for none, so that lines are read without a prompt or, between terminals, with the
default one. -/

namespace ReversePolish

open CommandLine (Options Level Task defaultPrompt)

theorem Route.lines_prompted (prompt : Prompt) {input : String} {lines : List String}
    (h : IsTextOf lines input.toList) : (Route.prompted prompt).lines input = lines := by
  have hread : List.Forall₂ (· = ·) ((Route.prompted prompt).lines input) lines := by
    refine List.forall₂_map_left_iff.2 ((linesOf_text h).imp fun raw line hline => ?_)
    rw [hline.withoutFeed_eq, String.ofList_toList]
  rwa [List.forall₂_eq_eq_eq] at hread

namespace Session

variable {m : Machine} {capacity : Int} {o : Options} {around : Surroundings}
  {lines : List String} {prompt : Prompt}

/-! ### Sessions -/

/-- No line ends a session. -/
theorem escaped_steps (h : m.WellFormed capacity) (ho : o.task ≠ .symbols) (lines : List String) :
    (steps o m lines).2 = none := by
  cases htask : o.task with
  | execute =>
      have hsame : { o with task := .execute } = o := by rw [← htask]
      rw [← hsame]
      exact (steps_execute h o lines).1
  | symbols => exact absurd htask ho
  | dump =>
      have hsame : { o with task := .dump } = o := by rw [← htask]
      rw [← hsame, steps_dump]

/-- What a session writes and prompts for, by whichever route its lines come. -/
theorem runOptions_eq (ho : o.task ≠ .symbols) (around : Surroundings) :
    let route := o.route (around.inputIsTerminal && around.outputIsTerminal)
    let lines := route.lines around.input
    runOptions o around =
      ⟨if around.interrupted && route.isRead then 1 else 0,
        opening o.task ++ (steps o { capacity := o.capacity } lines).1,
        route.prompts lines.length⟩ := by
  intro route lines
  exact runOptions_of_steps ho around (escaped_steps (.new o.capacity) ho lines)

/-- A session that prompts and treats one line after the other. -/
def prompting (o : Options) (prompt : Prompt) (lines : List String) (interrupted : Bool) :
    Transcript :=
  (converse o (some prompt) { capacity := o.capacity }
    (lines.map .line ++ [.last interrupted])).transcript (opening o.task)

theorem prompting_eq (ho : o.task ≠ .symbols) (prompt : Prompt) (lines : List String)
    (interrupted : Bool) :
    prompting o prompt lines interrupted =
      ⟨if interrupted then 1 else 0, opening o.task ++ (steps o { capacity := o.capacity } lines).1,
        List.replicate (lines.length + 1) prompt⟩ := by
  rw [prompting, converse_lines (escaped_steps (.new o.capacity) ho lines), Talk.transcript,
    Ending.status_ite]
  exact congrArg _ (flatten_prompts (.prompted prompt) lines.length)

/-- **A session with a prompt shows it for every attempt to read a line.** -/
theorem runOptions_prompted (ho : o.task ≠ .symbols)
    (hroute : o.route (around.inputIsTerminal && around.outputIsTerminal) = .prompted prompt)
    (htext : IsTextOf lines around.input.toList) :
    runOptions o around = prompting o prompt lines around.interrupted := by
  have hread : (Route.prompted prompt).isRead := rfl
  rw [runOptions_eq ho, prompting_eq ho, hroute, Route.lines_prompted prompt htext, hread,
    Bool.and_true]
  rfl

/-! ### Prompts that are given -/

theorem route_of_prompt (hexpression : o.expression = none) {text : String}
    (hprompt : o.prompt = some text) (hne : text ≠ "") (terminals : Bool) :
    o.route terminals = .prompted (.ofText text) := by
  unfold Options.route
  rw [hexpression, hprompt]
  exact if_pos hne

theorem route_of_empty_prompt (hexpression : o.expression = none) (hprompt : o.prompt = some "")
    (terminals : Bool) :
    o.route terminals = if terminals then .prompted (.ofText defaultPrompt) else .piped := by
  unfold Options.route
  rw [hexpression, hprompt]
  rfl

/-- An empty prompt is not shown: between terminals the default prompt is, and else none. -/
theorem prompts_of_empty_prompt (hexpression : o.expression = none) (hprompt : o.prompt = some "")
    (ho : o.task ≠ .symbols) (htext : IsTextOf lines around.input.toList) :
    (runOptions o around).prompts =
      if around.inputIsTerminal && around.outputIsTerminal
        then List.replicate (lines.length + 1) (.ofText defaultPrompt) else [] := by
  rw [runOptions_eq ho, route_of_empty_prompt hexpression hprompt]
  split
  · rw [Route.lines_prompted _ htext]
    rfl
  · rfl

theorem prompts_ne_of_empty_prompt (hexpression : o.expression = none)
    (hprompt : o.prompt = some "") (ho : o.task ≠ .symbols)
    (htext : IsTextOf lines around.input.toList) :
    (runOptions o around).prompts ≠ List.replicate (lines.length + 1) (.ofText "") := by
  rw [prompts_of_empty_prompt hexpression hprompt ho htext]
  split
  · rw [Ne, List.replicate_right_inj (Nat.succ_ne_zero _)]
    decide
  · exact (List.cons_ne_nil _ _).symm

/-- **A prompt that was given is shown for every attempt to read a line just if it is not empty.**
Then a session of `n` lines makes `n + 1` attempts, treats all lines in order, and leaves with the
status of its end.  An empty prompt is not shown: between terminals the default prompt is, and else
none. -/
theorem prompt_given_iff {arguments : List String} {o : Options} {text : String}
    (hparse : Options.parse arguments = .ok o) (hprompt : o.prompt = some text)
    (ho : o.task ≠ .symbols) (around : Surroundings) {lines : List String}
    (htext : IsTextOf lines around.input.toList) :
    let session := run arguments around
    let prompt : Prompt := ⟨text, String.ofList (List.replicate text.length ' ')⟩
    let expected := prompting o prompt lines around.interrupted
    (session = expected ↔ text ≠ "") ∧
      expected =
        ⟨if around.interrupted then 1 else 0,
          opening o.task ++ (steps o { capacity := o.capacity } lines).1,
          List.replicate (lines.length + 1) prompt⟩ ∧
      (steps o { capacity := o.capacity } lines).2 = none ∧
      (text = "" → session.prompts =
        if around.inputIsTerminal && around.outputIsTerminal
          then List.replicate (lines.length + 1) ⟨"> ", "  "⟩ else []) := by
  intro session prompt expected
  have hexpression : o.expression = none :=
    CommandLine.Options.expression_eq_none hparse (by rw [hprompt]; exact Option.some_ne_none text)
  have hsession : session = runOptions o around := by
    change run arguments around = _
    rw [run, hparse]
  have hexpected := prompting_eq ho prompt lines around.interrupted
  refine ⟨⟨?_, fun hne => ?_⟩, hexpected, escaped_steps (.new o.capacity) ho lines, ?_⟩
  · rintro hsame rfl
    refine prompts_ne_of_empty_prompt hexpression hprompt ho htext ?_
    rw [← hsession, hsame]
    exact congrArg Transcript.prompts hexpected
  · rw [hsession]
    exact runOptions_prompted ho (route_of_prompt hexpression hprompt hne _) htext
  · rintro rfl
    rw [hsession, prompts_of_empty_prompt hexpression hprompt ho htext]
    rfl

/-- Two lines, the last without its line feed, up to an interrupt; and an empty prompt between
terminals. -/
theorem prompt_given_iff_interrupted :
    let prompted : Surroundings := { input := "1 2 +\nDUP", interrupted := true }
    let terminals : Surroundings := { inputIsTerminal := true, outputIsTerminal := true }
    run ["-c", "3", "-p", "? "] prompted =
        ⟨1, [.shown "[3]", .shown "[3, 3]"], List.replicate 3 ⟨"? ", "  "⟩⟩ ∧
      (run ["-D", "-p", ""] terminals).prompts = [⟨"> ", "  "⟩] := by
  intro prompted terminals
  have hparse : Options.parse ["-c", "3", "-p", "? "] =
      .ok { capacity := 3, prompt := some "? " } := by decide +kernel
  have htext : IsTextOf ["1 2 +", "DUP"] "1 2 +\nDUP".toList :=
    .cons (by decide) (.last (by decide) (by decide))
  obtain ⟨hprompt, hexpected, -⟩ := prompt_given_iff hparse rfl (by decide) prompted htext
  have hempty : Options.parse ["-D", "-p", ""] =
      .ok { prompt := some "", task := .dump } := by decide +kernel
  obtain ⟨-, -, -, hdefault⟩ := prompt_given_iff hempty rfl (by decide) terminals .nil
  constructor
  · rw [hprompt.2 (by decide), hexpected]
    decide +kernel
  · exact hdefault rfl

/-- A prompt that was given empty is not shown. -/
theorem empty_prompt_not_shown :
    Options.parse ["-p", ""] = .ok { prompt := some "" } ∧
      (run ["-p", ""] { input := "1 2 +\n" }).prompts ≠ List.replicate 2 ⟨"", ""⟩ := by
  decide +kernel

end Session

end ReversePolish
