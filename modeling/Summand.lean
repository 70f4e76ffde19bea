import Summand.Text.CodeRange
import Summand.Text.Blank
import Summand.Text.Numeric
import Summand.Text.Utf8
import Summand.Text.Numeral
import Summand.Token.Kind
import Summand.Token
import Summand.Log.Event
import Summand.Log.Logged
import Summand.Token.Stream
import Summand.Token.StreamRequest
import Summand.Token.Buffer
import Summand.Expr
import Summand.Expr.Parsing
import Summand.Expr.BufferRequest
import Summand.Expr.Drawing
import Summand.Console.IoError
import Summand.Console.Sink
import Summand.Console.Text
import Summand.Console.Foreground
import Summand.Console.WriteRequest
import Summand.Session.Input
import Summand.Session.Terminal
import Summand.Session.View
import Summand.Text.Alphabetic
import Summand.Text.Parts
import Summand.Text.Printable
import Summand.Text.Decimal
import Summand.Pattern.Mode
import Summand.Pattern.Atom
import Summand.Pattern.Nesting
import Summand.Pattern
import Summand.Log.Directive
import Summand.Log.Filter
import Summand.Cli.Options
import Summand.Cli.Outcome
import Summand.Main
import Summand.Proofs.Scanning
import Summand.Proofs.Segmentation
import Summand.Proofs.SumReading
import Summand.Proofs.Delivery
import Summand.Proofs.Evaluation
import Summand.Proofs.LineTexts
import Summand.Proofs.InputLines
import Summand.Proofs.Dialogue
import Summand.Proofs.Rounds
import Summand.Proofs.Prompts
import Summand.Proofs.DialogueFaults
import Summand.Proofs.Coloring
import Summand.Proofs.Spelling
import Summand.Proofs.TreeRecovery
import Summand.Proofs.ListingRecovery
import Summand.Proofs.Significance
import Summand.Proofs.Seams
import Summand.Proofs.SourceReading
import Summand.Proofs.Acceptance
import Summand.Proofs.Relabeling
import Summand.Proofs.TriviaInvariance
import Summand.Proofs.Cutoff
import Summand.Proofs.Coverage
import Summand.Proofs.BufferHistory
import Summand.Proofs.AsciiBytes
import Summand.Proofs.CounterReading
import Summand.Proofs.LineEndings
import Summand.Proofs.SingleLine
import Summand.Proofs.TreeAlphabet
import Summand.Proofs.ColorWrapping
import Summand.Proofs.Places
import Summand.Proofs.TreeLines
import Summand.Proofs.Branches
import Summand.Proofs.NumeralValue
import Summand.Proofs.Joining
import Summand.Proofs.NumberValues
import Summand.Proofs.Exhaustion
import Summand.Proofs.Transparency
import Summand.Proofs.Printing
import Summand.Proofs.Reporting
import Summand.Proofs.Warnings
import Summand.Proofs.SettingReading
import Summand.Proofs.CommandLines
