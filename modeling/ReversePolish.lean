import ReversePolish.Binary64.Encoding
import ReversePolish.Main
import ReversePolish.Proofs.Machine.Canonical
import ReversePolish.Proofs.Machine.Feeding
import ReversePolish.Proofs.Machine.Frame
import ReversePolish.Proofs.Machine.History
import ReversePolish.Proofs.Machine.Replay
import ReversePolish.Proofs.Session.Executor
import ReversePolish.Proofs.Machine.Capacity
import ReversePolish.Proofs.Evaluation.Shape
import ReversePolish.Proofs.Machine.Outline
import ReversePolish.Proofs.Lexicon.Grammar
import ReversePolish.Proofs.Fault.Message
import ReversePolish.Proofs.Text.Quoted
import ReversePolish.Proofs.Machine.Display
import ReversePolish.Proofs.Session.Folding
import ReversePolish.Proofs.Binary64.Nearest
import ReversePolish.Proofs.Evaluation.Integers
import ReversePolish.Proofs.Evaluation.Power
import ReversePolish.Proofs.Lexicon.Integers
import ReversePolish.Proofs.Session.Routes
import ReversePolish.Proofs.Evaluation.Division
import ReversePolish.Proofs.Evaluation.Comparison
import ReversePolish.Proofs.Machine.Readback
import ReversePolish.Proofs.Enclosure.Basic
import ReversePolish.Proofs.Binary64.Exponential
import ReversePolish.Proofs.Binary64.PowerRange
import ReversePolish.Proofs.Binary64.Domain
import ReversePolish.Proofs.Evaluation.Domain
import ReversePolish.Proofs.Evaluation.Errors
import ReversePolish.Proofs.Binary64.Unique
import ReversePolish.Proofs.Text.Layout
import ReversePolish.Proofs.Numeral.Reading
import ReversePolish.Proofs.Numeral.Value
import ReversePolish.Proofs.Lexicon.Decimals
import ReversePolish.Proofs.Binary64.SixPlaces
import ReversePolish.Proofs.Numeral.Writing
import ReversePolish.Proofs.Lexicon.Doubles
import ReversePolish.Proofs.Machine.Negation
import ReversePolish.Proofs.Machine.Shuffles
import ReversePolish.Proofs.Text.Unquoted
import ReversePolish.Proofs.Session.Table
import ReversePolish.Proofs.CommandLine.Exclusion
import ReversePolish.Proofs.Session.Prompting
import ReversePolish.Proofs.Number.ExactPower
import ReversePolish.Proofs.Evaluation.ExactPower
import ReversePolish.Proofs.Token.Doubles
import ReversePolish.Proofs.Evaluation.Truth
