import ReversePolish.CommandLine.Switch
import ReversePolish.Machine

/-! # Options

`Options.parse` reads the arguments of a command line.  It first decides what each argument is,
and then takes the switches from left to right.  The first thing that is wrong ends the reading,
except that arguments nobody takes are collected and reported when all others are in order, and
that the capacity is looked at last.  Two dashes joined to a switch are not handed to it as a value
but count as the barrier does, so they take its value back, which a later value can make good.

A switch that excludes another is refused wherever the two stand, also if it only repeats a
default. -/

namespace ReversePolish.CommandLine

/-- How much the journal tells. -/
inductive Level where
  | debug | info | warning | error | critical
deriving DecidableEq, Repr

namespace Level

def all : List Level := [debug, info, warning, error, critical]

def name : Level → String
  | debug => "DEBUG"
  | info => "INFO"
  | warning => "WARNING"
  | error => "ERROR"
  | critical => "CRITICAL"

end Level

/-- What a session does with its lines. -/
inductive Task where
  | execute
  | symbols
  | dump
deriving DecidableEq, Repr

structure Options where
  capacity : Int := defaultCapacity
  /-- The words to read in place of lines of input. -/
  expression : Option (List String) := none
  prompt : Option String := none
  task : Task := .execute
  level : Level := .warning
deriving DecidableEq, Repr

/-- The prompt that stands for one that is not given. -/
def defaultPrompt : String := "> "

/-! ### What can be wrong -/

inductive UsageError where
  | ambiguous (argument : String) (candidates : List Switch)
  | missingValue (s : Switch)
  | ignoredValue (s : Switch) (value : String)
  | notInteger (s : Switch) (value : String)
  | notAmong (s : Switch) (value : String) (choices : List String)
  | excluded (s rival : Switch)
  | unrecognized (arguments : List String)
  | capacityTooSmall
deriving DecidableEq, Repr

namespace UsageError

/-- A complaint about a switch. -/
def about (s : Switch) (complaint : String) : String := "argument " ++ s.name ++ ": " ++ complaint

def message : UsageError → String
  | ambiguous argument candidates =>
      "ambiguous option: " ++ argument ++ " could match " ++
        ", ".intercalate (candidates.map Switch.long)
  | missingValue s => about s "expected one argument"
  | ignoredValue s value => about s ("ignored explicit argument " ++ Text.quoted value)
  | notInteger s value => about s ("invalid int value: " ++ Text.quoted value)
  | notAmong s value choices =>
      about s ("invalid choice: " ++ Text.quoted value ++ " (choose from " ++
        ", ".intercalate (choices.map Text.quoted) ++ ")")
  | excluded s rival => about s ("not allowed with argument " ++ rival.name)
  | unrecognized arguments => "unrecognized arguments: " ++ " ".intercalate arguments
  | capacityTooSmall => "capacity must be at least 1"

end UsageError

/-- What ends the reading of arguments early. -/
inductive Refusal where
  /-- The user asked for help. -/
  | help
  | error (e : UsageError)
deriving DecidableEq, Repr

/-! ### One argument and the values after it -/

/-- An argument with what it is. -/
structure Marked where
  argument : String
  mark : Mark

/-- Decides what each argument is; behind a barrier everything is a value. -/
def markAll : List String → Except UsageError (List Marked)
  | [] => .ok []
  | argument :: rest =>
      match Mark.ofArgument argument with
      | .ok .barrier => .ok (⟨argument, .barrier⟩ :: rest.map fun a => ⟨a, .value⟩)
      | .ok mark => (markAll rest).map (⟨argument, mark⟩ :: ·)
      | .error candidates => .error (.ambiguous argument candidates)

/-- A switch with the values it was given. -/
abbrev Call := Switch × List String

/-- What reading one argument comes to: calls, and the arguments left. -/
structure Taken where
  calls : List Call
  left : List Marked

/-- Calls a switch with values from the arguments after it. -/
def takeFollowing (s : Switch) (following : List Marked) :
    Except UsageError (Call × List Marked) :=
  match s.takes, following with
  | .nothing, _ => .ok ((s, []), following)
  | .one, ⟨v, .value⟩ :: left => .ok ((s, [v]), left)
  | .one, _ => .error (.missingValue s)
  | .atMostOne, ⟨v, .value⟩ :: left => .ok ((s, [v]), left)
  | .atMostOne, _ => .ok ((s, []), following)
  | .rest, _ =>
      .ok ((s, (following.takeWhile (·.mark ≠ .barrier)).map Marked.argument),
        following.dropWhile (·.mark ≠ .barrier))

/-- The values in a text that is joined to a switch: the text itself.  Two dashes are meant as the
barrier there too, and dropped: `-p--` is `-p` without a value.  Only a switch that takes whatever
follows has them as a word. -/
def joinedValues (s : Switch) (text : List Char) : List String :=
  if text = ['-', '-'] ∧ s.takes ≠ .rest then [] else [String.ofList text]

/-- Calls the switches that share one argument as letters, the last one with the rest of it or
with the arguments after it. -/
def takeLetters (s : Switch) (following : List Marked) :
    List Char → Except UsageError Taken
  | [] => (takeFollowing s following).map fun (call, left) => ⟨[call], left⟩
  | letter :: rest =>
      if s.takes ≠ .nothing then .ok ⟨[(s, joinedValues s (letter :: rest))], following⟩
      else
        match Switch.ofLetter? letter with
        | none => .error (.ignoredValue s (String.ofList (letter :: rest)))
        | some next =>
            (takeLetters next following rest).map fun taken =>
              { taken with calls := (s, []) :: taken.calls }

/-- Reads one argument that is a switch.  What is joined to a letter are letters, if the switch
takes no value. -/
def takeSwitch (s : Switch) (short : Bool) (joined : Option (List Char))
    (following : List Marked) : Except UsageError Taken :=
  match joined with
  | none => takeLetters s following []
  | some text =>
      if s.takes ≠ .nothing then .ok ⟨[(s, joinedValues s text)], following⟩
      else if short && !text.isEmpty then takeLetters s following text
      else .error (.ignoredValue s (String.ofList text))

/-! ### All arguments -/

/-- Options as far as they are read. -/
structure Reading where
  options : Options := {}
  seen : List Switch := []
  /-- The switches that need a value and were given none the last time. -/
  unvalued : List Switch := []
  extras : List String := []

/-- The options after a switch with its values. -/
def Options.set (o : Options) : Call → Except Refusal Options
  | (.capacity, value :: _) =>
      match Numeral.readInteger? value.toList with
      | some capacity => .ok { o with capacity }
      | none => .error (.error (.notInteger .capacity value))
  | (.logLevel, value :: _) =>
      match Level.all.find? (·.name = value) with
      | some level => .ok { o with level }
      | none => .error (.error (.notAmong .logLevel value (Level.all.map Level.name)))
  | (.expression, words) => .ok { o with expression := some words }
  | (.prompt, values) => .ok { o with prompt := some (values.headD defaultPrompt) }
  | (.symbols, _) => .ok { o with task := .symbols }
  | (.dump, _) => .ok { o with task := .dump }
  | (.debug, _) => .ok { o with level := .debug }
  | (.quiet, _) => .ok { o with level := .critical }
  | (.help, _) => .error .help
  | _ => .ok o

/-- The call leaves a switch without the value it needs. -/
def Call.isUnvalued (call : Call) : Bool := call.1.takes = .one && call.2.isEmpty

/-- Takes a switch with its values, unless a rival was taken before. -/
def Reading.call (r : Reading) (call : Call) : Except Refusal Reading := do
  let options ← r.options.set call
  let others := r.unvalued.filter (· ≠ call.1)
  let unvalued := if call.isUnvalued then call.1 :: others else others
  match call.1.rivals.find? r.seen.contains with
  | some rival => .error (.error (.excluded call.1 rival))
  | none => .ok { r with options, unvalued, seen := call.1 :: r.seen }

/-- Reads arguments; `fuel` is at least their number. -/
def Reading.takeAll (r : Reading) : Nat → List Marked → Except Refusal Reading
  | 0, _ => .ok r
  | _, [] => .ok r
  | fuel + 1, ⟨argument, mark⟩ :: following =>
      match mark with
      | .switch s short joined =>
          match takeSwitch s short joined following with
          | .error e => .error (.error e)
          | .ok taken => do
              let next ← taken.calls.foldlM Reading.call r
              next.takeAll fuel taken.left
      | _ => Reading.takeAll { r with extras := r.extras ++ [argument] } fuel following

/-- The options, once all arguments are read. -/
def Reading.finish (r : Reading) : Except UsageError Options :=
  if !r.extras.isEmpty then .error (.unrecognized r.extras)
  else if r.unvalued.contains .capacity then .error (.missingValue .capacity)
  else if r.options.capacity < 1 then .error .capacityTooSmall
  else if r.unvalued.contains .logLevel then .error (.missingValue .logLevel)
  else .ok r.options

/-- Reads the arguments of a command line. -/
def Options.parse (arguments : List String) : Except Refusal Options :=
  match markAll arguments with
  | .error e => .error (.error e)
  | .ok marked => do
      let r ← Reading.takeAll {} marked.length marked
      r.finish.mapError .error

end ReversePolish.CommandLine
