import Reckoner.Binary64
import Reckoner.ByteUnit
import Reckoner.Calculator
import Reckoner.CommandLine.Argument
import Reckoner.CommandLine.Invocation
import Reckoner.CommandLine.Run
import Reckoner.CommandLine.Switch
import Reckoner.CommandLine.Usage
import Reckoner.Decimal.Fixed
import Reckoner.Decimal.Rounding
import Reckoner.Decimal.Shortest
import Reckoner.Evaluation
import Reckoner.Json.Basic
import Reckoner.Json.Encoding
import Reckoner.Json.Foreign
import Reckoner.Json.Number
import Reckoner.Json.Printer
import Reckoner.Json.Reader
import Reckoner.Main
import Reckoner.Numeral
import Reckoner.Operation
import Reckoner.Package
import Reckoner.Package.Bodies
import Reckoner.Package.Requests
import Reckoner.Package.Units
import Reckoner.Package.Validation
import Reckoner.Postfix
import Reckoner.Proofs.Abbreviation
import Reckoner.Proofs.Alike
import Reckoner.Proofs.Binary64.Absolute
import Reckoner.Proofs.Binary64.Bits
import Reckoner.Proofs.Binary64.Exact
import Reckoner.Proofs.Binary64.Interval
import Reckoner.Proofs.Binary64.Nearest
import Reckoner.Proofs.Binary64.Negation
import Reckoner.Proofs.Binary64.OfDecimal
import Reckoner.Proofs.Binary64.Order
import Reckoner.Proofs.Binary64.TiesToEven
import Reckoner.Proofs.Chunks
import Reckoner.Proofs.CommandLine.Documents
import Reckoner.Proofs.CommandLine.Modes
import Reckoner.Proofs.Completion
import Reckoner.Proofs.Conservation
import Reckoner.Proofs.Context
import Reckoner.Proofs.Conversion
import Reckoner.Proofs.Decimal.Absolute
import Reckoner.Proofs.Decimal.Canonical
import Reckoner.Proofs.Decimal.Display
import Reckoner.Proofs.Decimal.Monotone
import Reckoner.Proofs.Decimal.Negation
import Reckoner.Proofs.Decimal.Quantum
import Reckoner.Proofs.Decimal.Refusal
import Reckoner.Proofs.Decimal.Repetition
import Reckoner.Proofs.Decimal.RoundTrip
import Reckoner.Proofs.Decimal.Shortest
import Reckoner.Proofs.Decimal.Trimmed
import Reckoner.Proofs.Definitions
import Reckoner.Proofs.Division
import Reckoner.Proofs.Drawing
import Reckoner.Proofs.Ending
import Reckoner.Proofs.Expression.Basic
import Reckoner.Proofs.Expression.Evaluation
import Reckoner.Proofs.Expression.Tokens
import Reckoner.Proofs.Grammar
import Reckoner.Proofs.Hexadecimal
import Reckoner.Proofs.Incident
import Reckoner.Proofs.Json.Digits
import Reckoner.Proofs.Json.Doubles
import Reckoner.Proofs.Json.Grammar
import Reckoner.Proofs.Json.Levels
import Reckoner.Proofs.Json.Nesting
import Reckoner.Proofs.Json.Printed
import Reckoner.Proofs.Json.Reading
import Reckoner.Proofs.Json.Report
import Reckoner.Proofs.Json.Scanning
import Reckoner.Proofs.Json.Standard
import Reckoner.Proofs.Json.Strings
import Reckoner.Proofs.Json.Values
import Reckoner.Proofs.Keys
import Reckoner.Proofs.LeadingNumber
import Reckoner.Proofs.Lexed
import Reckoner.Proofs.Lexeme
import Reckoner.Proofs.Longest
import Reckoner.Proofs.Machine
import Reckoner.Proofs.Matching
import Reckoner.Proofs.Negation
import Reckoner.Proofs.Numeral
import Reckoner.Proofs.OperandText
import Reckoner.Proofs.Outcome
import Reckoner.Proofs.OuterParentheses
import Reckoner.Proofs.Parentheses
import Reckoner.Proofs.Phrase
import Reckoner.Proofs.Pieces
import Reckoner.Proofs.Plain
import Reckoner.Proofs.Reading
import Reckoner.Proofs.Registry.Desk
import Reckoner.Proofs.Registry.Expiry
import Reckoner.Proofs.Registry.History
import Reckoner.Proofs.Registry.Identifier
import Reckoner.Proofs.Registry.Isolation
import Reckoner.Proofs.Registry.Leaving
import Reckoner.Proofs.Registry.Lingering
import Reckoner.Proofs.Registry.Live
import Reckoner.Proofs.Registry.Sound
import Reckoner.Proofs.Reported
import Reckoner.Proofs.Rereading
import Reckoner.Proofs.RoundedOnce
import Reckoner.Proofs.Service.Envelope
import Reckoner.Proofs.Service.Loading
import Reckoner.Proofs.Service.OneOff
import Reckoner.Proofs.Service.Posting
import Reckoner.Proofs.Service.Refusal
import Reckoner.Proofs.Service.Rejection
import Reckoner.Proofs.Service.Schema
import Reckoner.Proofs.Service.Standing
import Reckoner.Proofs.Service.Supplied
import Reckoner.Proofs.Service.Writing
import Reckoner.Proofs.Stop
import Reckoner.Proofs.TreeValue
import Reckoner.Proofs.Trimming
import Reckoner.Proofs.UnaryMinus
import Reckoner.Proofs.UnitSuffix
import Reckoner.Proofs.Variables
import Reckoner.Proofs.Withholding
import Reckoner.Random
import Reckoner.Registry
import Reckoner.Service.Application
import Reckoner.Service.Configuration
import Reckoner.Service.Failure
import Reckoner.Service.LogChannel
import Reckoner.Service.Message
import Reckoner.Service.Payload
import Reckoner.Service.Route
import Reckoner.Service.Socket
import Reckoner.Settings.Basic
import Reckoner.Settings.Coercion
import Reckoner.Text.Blank
import Reckoner.Text.Case
import Reckoner.Text.CodePoint
import Reckoner.Text.Digit
import Reckoner.Text.Escape
import Reckoner.Text.Printable
import Reckoner.Text.Quoted
import Reckoner.Text.Split
import Reckoner.TimeSpan
import Reckoner.Token.Basic
import Reckoner.Token.Lexing
import Reckoner.Token.Sequence
import Reckoner.Variables
import Reckoner.Warnings
