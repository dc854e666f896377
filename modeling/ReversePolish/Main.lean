import ReversePolish.Session

/-! # The command line program

Reads the arguments, takes lines from the standard input one at a time, and writes what
`Session.step` makes of each. -/

namespace ReversePolish.Main

/-- Writes outputs, each to its own stream. -/
def write (outputs : List Output) : IO Unit := do
  for output in outputs do
    match output with
    | .shown text => IO.println text
    | .complaint text => IO.eprintln text
  (← IO.getStdout).flush

/-- Takes lines up to the end of the input, prompting for each if there is a prompt. -/
partial def takeLines (o : CommandLine.Options) (prompt? : Option Prompt) (m : Machine) :
    IO Unit := do
  if let some prompt := prompt? then
    IO.print prompt.first
    (← IO.getStdout).flush
  let line ← (← IO.getStdin).getLine
  unless line.isEmpty do
    let line := if prompt?.isSome then String.ofList (withoutFeed line.toList) else line
    let treated := Session.step o m line
    write treated.outputs
    if treated.escaped.isNone then takeLines o prompt? treated.machine

/-- A session with its options read. -/
def runOptions (o : CommandLine.Options) : IO Unit := do
  write (Session.opening o.task)
  unless o.task = .symbols do
    let terminals := (← (← IO.getStdin).isTty) && (← (← IO.getStdout).isTty)
    let m : Machine := { capacity := o.capacity }
    match o.route terminals with
    | .expression line => write (Session.step o m line).outputs
    | .prompted prompt => takeLines o (some prompt) m
    | .piped => takeLines o none m

end ReversePolish.Main

def main (arguments : List String) : IO UInt32 := do
  match ReversePolish.CommandLine.Options.parse arguments with
  | .ok o =>
      ReversePolish.Main.runOptions o
      return 0
  | .error .help =>
      IO.println ReversePolish.Session.usage
      return 0
  | .error (.error e) =>
      IO.eprintln (ReversePolish.Session.complaint e)
      return 2
