import ReversePolish.Text.Words
import ReversePolish.Text.Quoted

/-! # Switches

A switch has one or two spellings, takes a number of values from the arguments after it, and may
exclude others.

`Mark.ofArgument` decides what an argument is before any is acted on.  A long spelling may be cut
short as long as only one switch begins like it, and a text may be joined to it by an equals
sign; to a short spelling a text may be joined directly or by an equals sign, which makes no
difference.  What looks like a negative number, or has a space in it, is a value. -/

namespace ReversePolish.CommandLine

inductive Switch where
  | help | capacity | expression | prompt | symbols | dump | logLevel | debug | quiet
deriving DecidableEq, Repr

/-- The values a switch takes. -/
inductive Takes where
  | nothing
  | one
  | atMostOne
  | rest
deriving DecidableEq, Repr

namespace Switch

def all : List Switch :=
  [help, capacity, expression, prompt, symbols, dump, logLevel, debug, quiet]

/-- The letter of the short spelling. -/
def letter? : Switch → Option Char
  | help => some 'h'
  | capacity => some 'c'
  | expression => some 'e'
  | prompt => some 'p'
  | symbols => some 'S'
  | dump => some 'D'
  | logLevel | debug | quiet => none

/-- The long spelling. -/
def long : Switch → String
  | help => "--help"
  | capacity => "--capacity"
  | expression => "--expression"
  | prompt => "--prompt"
  | symbols => "--symbols"
  | dump => "--dump"
  | logLevel => "--log-level"
  | debug => "--debug"
  | quiet => "--quiet"

/-- The switch in a sentence: its spellings. -/
def name (s : Switch) : String :=
  match s.letter? with
  | some c => String.ofList ['-', c, '/'] ++ s.long
  | none => s.long

def takes : Switch → Takes
  | help | symbols | dump | debug | quiet => .nothing
  | capacity | logLevel => .one
  | prompt => .atMostOne
  | expression => .rest

/-- Groups of switches that exclude each other. -/
def groups : List (List Switch) :=
  [[expression, prompt], [symbols, dump], [logLevel, debug, quiet]]

/-- The switches that may not be given together with this one. -/
def rivals (s : Switch) : List Switch :=
  (groups.filter (·.contains s)).flatten.filter (· ≠ s)

/-- The switch with a short spelling. -/
def ofLetter? (c : Char) : Option Switch := all.find? fun s => s.letter? = some c

/-- The switches whose long spelling begins with a text. -/
def beginning (start : List Char) : List Switch :=
  all.filter fun s => start.isPrefixOf s.long.toList

end Switch

/-! ### What an argument is -/

/-- What an argument is. -/
inductive Mark where
  | value
  /-- The argument after which everything is a value. -/
  | barrier
  /-- A switch, by its letter or not, and the text joined to it. -/
  | switch (s : Switch) (short : Bool) (joined : Option (List Char))
  | unknown
deriving DecidableEq, Repr

/-- Cuts a text at the first equals sign. -/
def cutAtEquals (cs : List Char) : List Char × Option (List Char) :=
  match cs.dropWhile (· ≠ '=') with
  | [] => (cs, none)
  | _ :: text => (cs.takeWhile (· ≠ '='), some text)

/-- A run of decimal digits, not empty. -/
def isDigitRun (cs : List Char) : Bool := !cs.isEmpty && cs.all Text.isDecimalDigit

/-- Less a line feed at the end. -/
def withoutFinalFeed (cs : List Char) : List Char :=
  if cs.getLast? = some '\n' then cs.dropLast else cs

/-- A minus sign and then digits, or a fraction with digits after the point. -/
def looksNegative : List Char → Bool
  | '-' :: rest =>
      let rest := withoutFinalFeed rest
      isDigitRun rest ||
        match rest.dropWhile Text.isDecimalDigit with
        | '.' :: places => isDigitRun places
        | _ => false
  | _ => false

/-- What an argument is that no switch begins like. -/
def Mark.ofUnknown (cs : List Char) : Mark :=
  if looksNegative cs ∨ cs.contains ' ' then .value else .unknown

/-- What an argument is that begins with two dashes.  More than one candidate is an ambiguity. -/
def Mark.ofLong (cs : List Char) : Except (List Switch) Mark :=
  let (start, joined) := cutAtEquals cs
  match Switch.all.find? (fun s => s.long.toList = start), Switch.beginning start with
  | some s, _ => .ok (.switch s false joined)
  | none, [s] => .ok (.switch s false joined)
  | none, [] => .ok (.ofUnknown cs)
  | none, candidates => .error candidates

/-- What an argument is that begins with one dash and a character. -/
def Mark.ofShort (cs : List Char) (letter : Char) (rest : List Char) : Mark :=
  match Switch.ofLetter? letter, rest with
  | none, _ => .ofUnknown cs
  | some s, [] => .switch s true none
  | some s, '=' :: text => .switch s true (some text)
  | some s, text => .switch s true (some text)

/-- What an argument is; the candidates, if it could be several switches. -/
def Mark.ofArgument (argument : String) : Except (List Switch) Mark :=
  match argument.toList with
  | ['-', '-'] => .ok .barrier
  | '-' :: '-' :: rest => Mark.ofLong ('-' :: '-' :: rest)
  | '-' :: letter :: rest => .ok (Mark.ofShort ('-' :: letter :: rest) letter rest)
  | _ => .ok .value

end ReversePolish.CommandLine
