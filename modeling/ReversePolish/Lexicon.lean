import ReversePolish.Numeral
import ReversePolish.Text.Words
import ReversePolish.Token

/-! # The lexicon

`classify` says what a word stands for: a numeral, a truth value, an operator, or nothing.  Words
that stand for nothing are dropped without complaint.

A word of digits is read exactly, as an integer.  Where that fails because it has too many digits
or is beyond the doubles, it is read as a double, like any other numeral. -/

namespace ReversePolish.Lexicon

/-- A failure to read an integer that leaves the word to be read as a double. -/
def leavesDouble : Failure → Bool
  | .fault f => f.category = .domain
  | .trouble t => t = .undefined

/-- The token of a word read as an integer. -/
def integerToken (word : List Char) : Except Failure Token :=
  (Numeral.integerOf word).bind Token.ofInt

/-- The token of a word read as a double. -/
def doubleToken (word : List Char) : Except Failure Token :=
  (Numeral.doubleOf word).bind Token.ofDouble

/-- The token of an operator word, if it is one. -/
def operatorToken (word : String) : Except Failure Token :=
  match Token.ofSymbol word with
  | .error (.fault (.unknownSymbol _)) => .ok .ignored
  | result => result

/-- The token of a word that is not one of digits. -/
def symbolToken (word : String) : Except Failure Token :=
  if Numeral.isNumeral word.toList then doubleToken word.toList
  else if word = trueWord then .ok (.boolean true)
  else if word = falseWord then .ok (.boolean false)
  else operatorToken word

/-- What a word stands for. -/
def classify (word : String) : Except Failure Token :=
  if Numeral.isWhole word.toList then
    match integerToken word.toList with
    | .ok t => .ok t
    | .error failure => if leavesDouble failure then symbolToken word else .error failure
  else symbolToken word

/-- The tokens of words, less the words that stand for nothing. -/
def parseWords : List String → Except Failure (List Token)
  | [] => .ok []
  | word :: rest => do
      let t ← classify word
      let ts ← parseWords rest
      return if t.isLegitimate then t :: ts else ts

/-- The tokens of a text, less the words that stand for nothing. -/
def parse (text : String) : Except Failure (List Token) := parseWords (Text.words text)

/-- A word that stands for nothing. -/
def isUnknown (word : String) : Bool :=
  match classify word with
  | .ok t => !t.isLegitimate
  | .error _ => false

/-- The words of a text that stand for nothing. -/
def unknownWords (text : String) : List String := (Text.words text).filter isUnknown

end ReversePolish.Lexicon
