import ReversePolish.Proofs.Fault.Message
import ReversePolish.Proofs.Machine.Display
import ReversePolish.Proofs.Machine.Feeding
import ReversePolish.Proofs.Session.Executor

/-! # Lines in, lines out

Executing folds the lines into the machine: `machineAt` is the machine after so many of them, and
`failures` is what they fail with.  Unless the journal is kept, the standard output has a line for
each line of input, the display of the machine after it, and the error output has a line for each
that fails, the message of its fault (`steps_fold`).  Both can be told apart into lines again, since
neither displays nor messages hold a line feed. -/

namespace ReversePolish

open CommandLine (Options Level)
open Text (IsLine splitSeparated)

namespace Machine

variable {m : Machine}

theorem after_append (m : Machine) (calls more : List Call) :
    m.after (calls ++ more) = (m.after calls).after more := List.foldl_append

/-- A full machine stays as it is, whatever text is fed to it. -/
theorem leaves_feed_of_full (h : m.capacity ≤ m.size) (text : String) :
    (feed text).leaves m = m := by
  rw [Routine.leaves, run_feed]
  cases tokensOf text with
  | nil => rfl
  | cons t ts => rw [run_pushAll_cons, next_of_full h]

theorem after_feeds_of_full (h : m.capacity ≤ m.size) (texts : List String) :
    m.after (texts.map .feed) = m := by
  induction texts with
  | nil => rfl
  | cons text texts ih =>
      change ((feed text).leaves m).after (texts.map .feed) = m
      rw [leaves_feed_of_full h, ih]

end Machine

namespace Session

open Output (shownTexts complaintTexts complaintTexts_append)

variable {m : Machine} {capacity : Int} {lines : List String} {line : String}

/-! ### The machines between the lines -/

/-- The machine after the first `k` of the lines. -/
def machineAt (m : Machine) (lines : List String) (k : Nat) : Machine :=
  m.after ((lines.take k).map .feed)

theorem machineAt_succ {k : Nat} (h : lines[k]? = some line) :
    machineAt m lines (k + 1) = (Machine.feed line).leaves (machineAt m lines k) := by
  rw [machineAt, List.take_add_one, h, List.map_append, Machine.after_append]
  rfl

/-- Once the machine is full it stays as it is. -/
theorem machineAt_of_full {j k : Nat}
    (h : (machineAt m lines k).capacity ≤ (machineAt m lines k).size) (hkj : k ≤ j) :
    machineAt m lines j = machineAt m lines k := by
  have hsplit : lines.take j = lines.take k ++ (lines.drop k).take (j - k) := by
    rw [← List.take_add, Nat.add_sub_cancel' hkj]
  rw [machineAt, hsplit, List.map_append, Machine.after_append]
  exact Machine.after_feeds_of_full h _

theorem trail_eq (m : Machine) (lines : List String) :
    trail m lines = (List.range lines.length).map fun k => machineAt m lines (k + 1) := by
  induction lines generalizing m with
  | nil => rfl
  | cons line rest ih =>
      rw [trail, ih, List.length_cons, List.range_succ_eq_map, List.map_cons, List.map_map]
      rfl

/-- What the lines fail with, one after the other; a line that does not fail adds nothing. -/
def failures (m : Machine) (lines : List String) : List Failure :=
  lines.zipIdx.flatMap fun (line, k) => ((Machine.feed line).failure? (machineAt m lines k)).toList

theorem failures_cons (m : Machine) (line : String) (rest : List String) :
    failures m (line :: rest) =
      ((Machine.feed line).failure? m).toList ++ failures ((Machine.feed line).leaves m) rest := by
  rw [failures, List.zipIdx_cons, List.zipIdx_succ, List.flatMap_cons, List.flatMap_map]
  rfl

/-! ### Complaints -/

theorem journalled_eq_nil {level : Level} (h : level ≠ .debug) (events : List Event) :
    journalled level events = [] := if_neg h

/-- A line fails with a fault, and its message is written, or does not fail. -/
theorem complaintTexts_execute (h : m.WellFormed capacity) {level : Level} (hlevel : level ≠ .debug)
    (line : String) :
    ∃ faults : List Fault, ((Machine.feed line).failure? m).toList = faults.map .fault ∧
      complaintTexts (execute level m line).outputs = faults.map Fault.message := by
  unfold execute Routine.failure?
  rcases Machine.feed_fault h line with ⟨next, hrun⟩ | ⟨f, left, hrun⟩
  · simp only [hrun, journalled_eq_nil hlevel]
    exact ⟨[], rfl, rfl⟩
  · simp only [hrun, complaints, journalled_eq_nil hlevel]
    exact ⟨[f], rfl, rfl⟩

theorem complaintTexts_steps (h : m.WellFormed capacity) {o : Options} (hlevel : o.level ≠ .debug)
    (lines : List String) :
    ∃ faults : List Fault, failures m lines = faults.map .fault ∧
      complaintTexts (steps { o with task := .execute } m lines).1 = faults.map Fault.message := by
  induction lines generalizing m with
  | nil => exact ⟨[], rfl, rfl⟩
  | cons line rest ih =>
      obtain ⟨hmachine, hescaped, -⟩ := execute_eq h o.level line
      obtain ⟨faults, hfailures, hcomplaints⟩ := complaintTexts_execute h hlevel line
      obtain ⟨more, hmore, hrest⟩ := ih (h.leaves_feed line)
      refine ⟨faults ++ more, ?_, ?_⟩
      · rw [failures_cons, hfailures, hmore, List.map_append]
      · rw [steps_cons (o := { o with task := .execute }) hescaped]
        simp only [step, hmachine, complaintTexts_append, hcomplaints, hrest, List.map_append]

/-! ### All lines -/

theorem wellFormed_machineAt (h : m.WellFormed capacity) (lines : List String) (k : Nat) :
    (machineAt m lines k).WellFormed capacity :=
  (Machine.isInvariant_wellFormed capacity).after h fun call _ => call.pushesOnly_true

/-- The standard output has a line for each line of input. -/
theorem linesOf_shown_steps (h : m.WellFormed capacity) (o : Options) (lines : List String) :
    linesOf (Output.shownText (steps { o with task := .execute } m lines).1).toList =
      (List.range lines.length).map fun k => withFeed (machineAt m lines (k + 1)).display := by
  obtain ⟨-, hshown⟩ := steps_execute h o lines
  rw [trail_eq, List.map_map] at hshown
  have hlines : ∀ text ∈ shownTexts (steps { o with task := .execute } m lines).1,
      IsLine text.toList := by
    rw [hshown]
    intro text htext
    obtain ⟨k, -, rfl⟩ := List.mem_map.1 htext
    exact Machine.isLine_display (wellFormed_machineAt h lines (k + 1)).values.stack
  rw [Output.linesOf_shownText hlines, hshown, List.map_map]
  rfl

/-- The error output has a line for each line of input that fails. -/
theorem linesOf_complaints_steps (h : m.WellFormed capacity) {o : Options}
    (hlevel : o.level ≠ .debug) (lines : List String) :
    ∃ faults : List Fault, failures m lines = faults.map .fault ∧
      linesOf (Output.complaintText (steps { o with task := .execute } m lines).1).toList =
        faults.map fun f => withFeed f.message := by
  obtain ⟨faults, hfailures, hcomplaints⟩ := complaintTexts_steps h hlevel lines
  have hlines : ∀ text ∈ complaintTexts (steps { o with task := .execute } m lines).1,
      IsLine text.toList := by
    rw [hcomplaints]
    intro text htext
    obtain ⟨f, -, rfl⟩ := List.mem_map.1 htext
    exact f.isLine_message
  refine ⟨faults, hfailures, ?_⟩
  rw [Output.linesOf_complaintText hlines, hcomplaints, List.map_map]
  rfl

/-- A line that fails has made the pushes before its first failure. -/
theorem exists_of_feed_error {failure : Failure} {left : Machine}
    (h : (Machine.feed line).run m = .error failure left) :
    ∃ earlier t later, Lexicon.parse line = .ok (earlier ++ t :: later) ∧
      (Machine.pushAll earlier).run m = .ok () left ∧
        (Machine.push t).run left = .error failure left := by
  rw [Machine.run_feed] at h
  obtain ⟨earlier, t, later, htokens, hearlier, ht⟩ := Machine.run_pushAll_error_iff.1 h
  exact ⟨earlier, t, later, htokens ▸ Machine.parse_eq_tokensOf line, hearlier, ht⟩

/-- **Executing folds the lines into the machine.**  It comes to the end of the lines.  The standard
output has one line for each, the display of the machine that the lines up to it have made of an
empty one; a line that fails has made the pushes before its first failure and no more.  The error
output has one line for each line that fails, the message of its fault, in order.  The displays of
the tokens can be read off each display, and once the machine is full nothing that is shown
changes any more. -/
theorem steps_fold (o : Options) (hlevel : o.level ≠ .debug) (lines : List String) :
    let m := machineAt { capacity := o.capacity } lines
    let executed := steps { o with task := .execute } { capacity := o.capacity } lines
    executed.2 = none ∧
      linesOf (Output.shownText executed.1).toList =
        (List.range lines.length).map (fun k => withFeed (m (k + 1)).display) ∧
      (∀ k line, lines[k]? = some line →
        m (k + 1) = (Machine.feed line).leaves (m k) ∧
          ∀ failure left, (Machine.feed line).run (m k) = .error failure left →
            ∃ earlier t later, Lexicon.parse line = .ok (earlier ++ t :: later) ∧
              (Machine.pushAll earlier).run (m k) = .ok () left ∧
                (Machine.push t).run left = .error failure left) ∧
      (∃ faults : List Fault, failures { capacity := o.capacity } lines = faults.map .fault ∧
        linesOf (Output.complaintText executed.1).toList =
          faults.map fun f => withFeed f.message) ∧
      (∀ k, (m k).display.toList = '[' :: ((m k).shown ++ [']']) ∧
        ((m k).stack ≠ [] →
          splitSeparated (m k).shown = (m k).items.map fun t => t.display.toList) ∧
        ((m k).display = "[]" ↔ (m k).stack = [])) ∧
      ∀ j k, k ≤ j → ((m k).size : Int) = o.capacity → m j = m k := by
  intro m executed
  have hnew : ({ capacity := o.capacity } : Machine).WellFormed o.capacity := .new o.capacity
  have hformed (k : Nat) := wellFormed_machineAt hnew lines k
  have hvalues (k : Nat) := (hformed k).values.stack
  refine ⟨(steps_execute hnew o lines).1, linesOf_shown_steps hnew o lines,
    fun k line hline => ⟨machineAt_succ hline, fun _ _ => exists_of_feed_error⟩,
    linesOf_complaints_steps hnew hlevel lines, fun k => ?_, fun j k hkj hfull => ?_⟩
  · exact ⟨Machine.toList_display (m k), Machine.splitSeparated_shown (hvalues k),
      Machine.display_eq_brackets_iff (hvalues k)⟩
  · refine machineAt_of_full ?_ hkj
    rw [(hformed k).capacity_eq]
    exact Int.le_of_eq hfull.symm

/-- A line that fails midway, one that fills the stack, and one that clears it no more. -/
theorem steps_fold_full :
    let lines := ["1 0 DIV 7\n", "2\n", "CLEAR\n"]
    let executed := steps { capacity := 3 } { capacity := 3 } lines
    linesOf (Output.shownText executed.1).toList =
        ["[1, 0]", "[1, 0, 2]", "[1, 0, 2]"].map withFeed ∧
      linesOf (Output.complaintText executed.1).toList =
        ["Division by zero", "Stack is full (3 elements)"].map withFeed := by
  intro lines executed
  obtain ⟨-, hshown, -, ⟨faults, hfailures, hcomplaints⟩, -, hfull⟩ :=
    steps_fold { capacity := 3 } (by decide) lines
  have hfirst : (machineAt { capacity := 3 } lines 1).display = "[1, 0]" := by decide +kernel
  have hsecond : (machineAt { capacity := 3 } lines 2).display = "[1, 0, 2]" := by decide +kernel
  have hthird := hfull 3 2 (by decide) (by decide +kernel)
  have hfaults : failures { capacity := 3 } lines =
      [Fault.divisionByZero, Fault.stackFull 3].map .fault := by decide +kernel
  have hinjective : Function.Injective Failure.fault := fun _ _ h => Failure.fault.inj h
  obtain rfl := List.map_injective_iff.2 hinjective (hfailures.symm.trans hfaults)
  constructor
  · rw [hshown]
    change [withFeed (machineAt { capacity := 3 } lines 1).display,
      withFeed (machineAt { capacity := 3 } lines 2).display,
      withFeed (machineAt { capacity := 3 } lines 3).display] = _
    rw [hthird, hfirst, hsecond]
    rfl
  · rw [hcomplaints]
    decide +kernel

end Session

end ReversePolish
