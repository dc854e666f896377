import ReversePolish.Binary64.Decimal
import ReversePolish.Fault
import ReversePolish.Text.Words

/-! # Numerals

A numeral is an optional sign and then digits, digits with a point, with an exponent or without,
or one of the words for infinity and for no number, in any case.  Digits are the ten of ASCII.
`read?` reads a numeral off a whole word; there are no blanks and no separators in it.  `integerOf`
is the integer that a sign and digits stand for, unless there are more than `digitLimit` of them.

A text is read as a number more freely than a word is taken for a numeral: there may be blanks
around it, its digits may be of any script, and a single underscore may stand between two of them.
`plain?` takes all that out, and `readInteger?` and `doubleOf` read what is left.  It leaves a
numeral as it is. -/

namespace ReversePolish

attribute [local instance (high)] instPowNat

/-- What a numeral says. -/
inductive Numeral where
  /-- A sign and digits. -/
  | whole (negative : Bool) (digits : List Char)
  /-- A coefficient and the power of ten it is taken times. -/
  | fraction (negative : Bool) (digits : List Char) (exponent : Int)
  | infinity (negative : Bool)
  | nan
deriving DecidableEq

namespace Numeral

/-- The longest run of digits that is read as an integer, zeros in front included, and the longest
that an integer is written with. -/
def digitLimit : Nat := 4300

/-- An integer that can be written out. -/
def isWritable (i : Int) : Bool := i.natAbs < 10 ^ digitLimit

/-- The value of decimal digits. -/
def valueOf (digits : List Char) : Nat := Nat.ofDigitChars 10 digits 0

/-- The number below a sign. -/
def signedValue (negative : Bool) (digits : List Char) : Int :=
  if negative then -(valueOf digits : Int) else valueOf digits

/-- Splits off an optional sign: whether it is a minus, and the rest. -/
def splitSign : List Char → Bool × List Char
  | '-' :: rest => (true, rest)
  | '+' :: rest => (false, rest)
  | rest => (false, rest)

/-- A run of digits that is not empty, and nothing else. -/
def isDigits (cs : List Char) : Bool := !cs.isEmpty && cs.all Char.isDigit

/-- Splits off the digits in front. -/
def splitDigits (cs : List Char) : List Char × List Char :=
  (cs.takeWhile Char.isDigit, cs.dropWhile Char.isDigit)

/-- Splits off the places after a decimal point, if there is one. -/
def splitPlaces : List Char → List Char × List Char
  | '.' :: rest => splitDigits rest
  | rest => ([], rest)

/-- The exponent that ends a numeral: none, or a letter and a signed integer. -/
def exponent? : List Char → Option Int
  | [] => some 0
  | c :: rest =>
      let (negative, digits) := splitSign rest
      if (c = 'e' ∨ c = 'E') ∧ isDigits digits then some (signedValue negative digits) else none

/-- Digits with a decimal point among them, and an exponent. -/
def fraction? (negative : Bool) (cs : List Char) : Option Numeral :=
  let (before, rest) := splitDigits cs
  let (places, rest) := splitPlaces rest
  if before.isEmpty && places.isEmpty then none
  else
    (exponent? rest).map fun exponent =>
      fraction negative (before ++ places) (exponent - places.length)

/-- The words that are numerals; the case of a letter does not matter. -/
def word? (negative : Bool) (cs : List Char) : Option Numeral :=
  let lower := cs.map Char.toLower
  if lower = "inf".toList ∨ lower = "infinity".toList then some (infinity negative)
  else if lower = "nan".toList then some nan
  else none

/-- Reads a word as a numeral. -/
def read? (word : List Char) : Option Numeral :=
  let (negative, rest) := splitSign word
  if isDigits rest then some (whole negative rest)
  else (fraction? negative rest).or (word? negative rest)

/-- The double that a numeral stands for. -/
def toDouble : Numeral → Binary64
  | whole negative digits => .ofDecimal negative (valueOf digits) 0
  | fraction negative digits exponent => .ofDecimal negative (valueOf digits) exponent
  | infinity negative => .infinite negative
  | nan => .nan

/-! ### Words -/

/-- A word of a sign and digits. -/
def isWhole (word : List Char) : Bool := isDigits (splitSign word).2

/-- A word that is a numeral. -/
def isNumeral (word : List Char) : Bool := (read? word).isSome

/-- The integer that a word of a sign and digits stands for. -/
def integerOf (word : List Char) : Except Failure Int :=
  match read? word with
  | some (whole negative digits) =>
      if digits.length ≤ digitLimit then .ok (signedValue negative digits)
      else .error (.trouble .undefined)
  | _ => .error (.trouble .undefined)

/-! ### Texts -/

/-- Drops blanks from both ends. -/
def trimBlanks (cs : List Char) : List Char :=
  ((cs.dropWhile Text.isBlank).reverse.dropWhile Text.isBlank).reverse

/-- A decimal digit of any script as one of the ten; any other character as it is. -/
def plainDigit (c : Char) : Char := ((Text.digitValue? c).map Nat.digitChar).getD c

/-- Takes out underscores, each of which has to stand between two digits; `digit` says whether one
stands in front of the text. -/
def withoutUnderscores? (digit : Bool) : List Char → Option (List Char)
  | [] => some []
  | c :: rest =>
      if c = '_' then
        if digit && rest.head?.any Char.isDigit then withoutUnderscores? false rest else none
      else (withoutUnderscores? c.isDigit rest).map (c :: ·)

/-- A text as a word: without blanks around it, with the ten digits, and without underscores. -/
def plain? (text : List Char) : Option (List Char) :=
  withoutUnderscores? false ((trimBlanks text).map plainDigit)

/-- The integer in a text. -/
def readInteger? (text : List Char) : Option Int :=
  (plain? text).bind fun word => (integerOf word).toOption

/-- The double that a text stands for. -/
def doubleOf (text : List Char) : Except Failure Binary64 :=
  match (plain? text).bind read? with
  | some numeral => .ok numeral.toDouble
  | none => .error (.trouble .undefined)

end Numeral

end ReversePolish
