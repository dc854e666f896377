import ReversePolish.CommandLine.Options
import ReversePolish.Journal

/-! # Sessions

A session is one run of the command line.  Its lines come by one of three routes: the words given
as an expression make one line; else lines are prompted for, if a prompt is given or both ends are
terminals; else they are read from the input as they are, with their line feeds.

`Session.step` treats one line: executing shows the stack after every line, also after one that
failed; dumping shows a row for every word.  `Session.converse` makes one attempt to read a line
after the other, each under the prompt if there is one, and treats what it reads.  Nothing a line
holds ends a session.  At the end of the input it leaves with status 0, on an interrupt with status
1, and what was written until then stays. -/

namespace ReversePolish

open CommandLine

/-- A line written to one of the two outputs. -/
inductive Output where
  | shown (text : String)
  | complaint (text : String)
deriving DecidableEq, Repr

namespace Output

/-- The text of the standard output. -/
def shownText (outputs : List Output) : String :=
  String.join <| outputs.map fun
    | shown text => text ++ "\n"
    | complaint _ => ""

/-- The text of the error output. -/
def complaintText (outputs : List Output) : String :=
  String.join <| outputs.map fun
    | shown _ => ""
    | complaint text => text ++ "\n"

end Output

/-- What a session finds around it. -/
structure Surroundings where
  input : String := ""
  /-- Reading past the last line is an interrupt, not the end of the input. -/
  interrupted : Bool := false
  inputIsTerminal : Bool := false
  outputIsTerminal : Bool := false

/-- A prompt, and what stands in its place where a line is continued. -/
structure Prompt where
  first : String
  continuation : String
deriving DecidableEq, Repr

/-- The continuation is as wide as the prompt. -/
def Prompt.ofText (text : String) : Prompt :=
  ⟨text, String.ofList (List.replicate text.length ' ')⟩

/-- The way lines come by. -/
inductive Route where
  | expression (line : String)
  | prompted (prompt : Prompt)
  | piped
deriving DecidableEq, Repr

/-- An empty prompt is none: it leaves the choice to the terminals. -/
def CommandLine.Options.route (o : Options) (terminals : Bool) : Route :=
  match o.expression with
  | some words => .expression (" ".intercalate words)
  | none =>
      match o.prompt with
      | some prompt =>
          if prompt ≠ "" then .prompted (.ofText prompt)
          else if terminals then .prompted (.ofText defaultPrompt)
          else .piped
      | none => if terminals then .prompted (.ofText defaultPrompt) else .piped

/-! ### Lines -/

/-- Splits behind every line feed; what follows the last one is a line if it is not empty. -/
def linesOf : List Char → List (List Char)
  | [] => []
  | c :: cs =>
      if c = '\n' then ['\n'] :: linesOf cs
      else
        match linesOf cs with
        | [] => [[c]]
        | line :: rest => (c :: line) :: rest

/-- A line less the line feed that ends it. -/
def withoutFeed (line : List Char) : List Char := line.filter (· ≠ '\n')

namespace Route

/-- The lines that come by a route. -/
def lines (route : Route) (input : String) : List String :=
  match route with
  | expression line => [line]
  | prompted _ => (linesOf input.toList).map fun line => String.ofList (withoutFeed line)
  | piped => (linesOf input.toList).map String.ofList

/-- The prompt of a route, if lines are prompted for. -/
def prompt? : Route → Option Prompt
  | prompted prompt => some prompt
  | _ => none

/-- The lines are read from the input. -/
def isRead : Route → Bool
  | expression _ => false
  | _ => true

end Route

/-- What an attempt to read a line comes to. -/
inductive Attempt where
  | line (text : String)
  | endOfInput
  | interrupt
deriving DecidableEq

/-- The attempt behind the last line. -/
def Attempt.last (interrupted : Bool) : Attempt := if interrupted then .interrupt else .endOfInput

/-- The attempts by a route.  Only reading can be interrupted. -/
def Route.attempts (route : Route) (around : Surroundings) : List Attempt :=
  (route.lines around.input).map .line ++ [.last (around.interrupted && route.isRead)]

namespace Session

/-! ### One line -/

/-- The lines of the journal, if it is kept. -/
def journalled (level : Level) (events : List Event) : List Output :=
  if level = .debug then events.map fun e => .complaint e.line else []

/-- What one line comes to: the machine after it, what was written, and the failure that ends the
session, if one does. -/
structure Treated where
  machine : Machine
  outputs : List Output
  escaped : Option Failure := none

/-- What the user is told of a fault. -/
def complaints (level : Level) (fault : Fault) (line : String) : List Output :=
  journalled level [.failed fault line] ++ [.complaint fault.message]

/-- Feeds a line to the machine and shows the stack.  A fault gives up the rest of the line, and
nothing else. -/
def execute (level : Level) (m : Machine) (line : String) : Treated :=
  let journal := journalled level (m.feedEvents line)
  match (Machine.feed line).run m with
  | .ok _ next => ⟨next, journal ++ [.shown next.display], none⟩
  | .error (.fault fault) next =>
      ⟨next, journal ++ complaints level fault line ++ [.shown next.display], none⟩
  | .error (.trouble trouble) next => ⟨next, journal, some (.trouble trouble)⟩

/-- The arity in a table; only operators have one. -/
def arityField : Token → String
  | .operator op => op.arity.repr
  | _ => ""

/-- The row of a word: what it is, the word, its arity. -/
def row (word : String) (t : Token) : String :=
  "\t".intercalate [t.kind.label, Text.quoted word, arityField t]

/-- What is written for a word. -/
def dumpWord (level : Level) (word : String) (t : Token) : List Output :=
  journalled level (if t.isLegitimate then [] else [.ignoring word]) ++ [.shown (row word t)]

/-- The rows of words, up to one that cannot be classified. -/
def dumpWords (level : Level) : List String → List Output × Option Failure
  | [] => ([], none)
  | word :: rest =>
      match Lexicon.classify word with
      | .ok t =>
          let (outputs, escaped) := dumpWords level rest
          (dumpWord level word t ++ outputs, escaped)
      | .error failure => ([], some failure)

/-- The rows of a line. -/
def dump (level : Level) (m : Machine) (line : String) : Treated :=
  let (outputs, escaped) := dumpWords level (Text.words line)
  ⟨m, outputs, escaped⟩

/-- The head of the table of words. -/
def dumpHead : String := "\t".intercalate ["<kind>", "<repr(word)>", "<arity>"]

/-- The words with a fixed meaning, in two lines. -/
def symbolLines : List String :=
  [" ".intercalate ("operators:" :: Operator.all.map Operator.symbol),
    " ".intercalate ("literals:" :: literalWords.mergeSort (· ≤ ·))]

/-! ### All lines -/

/-- What is written before any line is read. -/
def opening : Task → List Output
  | .execute => []
  | .symbols => symbolLines.map .shown
  | .dump => [.shown dumpHead]

/-- Treats one line. -/
def step (o : Options) (m : Machine) (line : String) : Treated :=
  match o.task with
  | .execute => execute o.level m line
  | .symbols => ⟨m, [], none⟩
  | .dump => dump o.level m line

/-- How a session comes to its end. -/
inductive Ending where
  | endOfInput
  | interrupt
  /-- A failure that nothing caught. -/
  | failure (failure : Failure)
deriving DecidableEq

namespace Ending

/-- The end of the input is what a session should come to. -/
def status : Ending → Nat
  | endOfInput => 0
  | interrupt | failure _ => 1

def failure? : Ending → Option Failure
  | failure f => some f
  | _ => none

end Ending

/-- What was written and prompted for, and how it ended. -/
structure Talk where
  outputs : List Output
  prompts : List Prompt
  ending : Ending
deriving DecidableEq

/-- Prompts, if there is a prompt, reads and treats one line after the other, up to an attempt that
no line comes of or a failure that ends the session. -/
def converse (o : Options) (prompt? : Option Prompt) : Machine → List Attempt → Talk
  | m, .line text :: later =>
      let treated := step o m text
      match treated.escaped with
      | some failure => ⟨treated.outputs, prompt?.toList, .failure failure⟩
      | none =>
          let rest := converse o prompt? treated.machine later
          ⟨treated.outputs ++ rest.outputs, prompt?.toList ++ rest.prompts, rest.ending⟩
  | _, .endOfInput :: _ => ⟨[], prompt?.toList, .endOfInput⟩
  | _, .interrupt :: _ => ⟨[], prompt?.toList, .interrupt⟩
  | _, [] => ⟨[], [], .endOfInput⟩

/-- What is written for lines, and the failure that ends the session among them, if one does. -/
def steps (o : Options) (m : Machine) (lines : List String) : List Output × Option Failure :=
  let talk := converse o none m (lines.map .line)
  (talk.outputs, talk.ending.failure?)

end Session

/-- What is left of a session. -/
structure Transcript where
  status : Nat
  outputs : List Output
  prompts : List Prompt := []
deriving DecidableEq, Repr

namespace Session

/-- What is left of a session that writes something before it reads. -/
def Talk.transcript (talk : Talk) (opening : List Output) : Transcript :=
  ⟨talk.ending.status, opening ++ talk.outputs, talk.prompts⟩

/-- A session with its options read.  Listing the symbols reads no line. -/
def runOptions (o : Options) (around : Surroundings) : Transcript :=
  match o.task with
  | .symbols => ⟨0, opening o.task, []⟩
  | task =>
      let route := o.route (around.inputIsTerminal && around.outputIsTerminal)
      (converse o route.prompt? { capacity := o.capacity } (route.attempts around)).transcript
        (opening task)

/-- The switches, for a user who asks for them. -/
def usage : String :=
  "usage: pascaline " ++ " ".intercalate (Switch.all.map fun s => "[" ++ s.name ++ "]")

/-- A complaint about the arguments. -/
def complaint (e : UsageError) : String := "pascaline: error: " ++ e.message

/-- A session of a command line. -/
def run (arguments : List String) (around : Surroundings) : Transcript :=
  match Options.parse arguments with
  | .ok o => runOptions o around
  | .error .help => ⟨0, [.shown usage], []⟩
  | .error (.error e) => ⟨2, [.complaint (complaint e)], []⟩

end Session

end ReversePolish
