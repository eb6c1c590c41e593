import FlowScript.Text.Position
import FlowScript.Text.Blank
import FlowScript.Text.Case
import FlowScript.Text.Quoted
import FlowScript.Text.Occurrence
import FlowScript.Text.Hex
import FlowScript.Number.Magnitude
import FlowScript.Number.Decimal
import FlowScript.Number.Shortest
import FlowScript.Number.Layout
import FlowScript.Calendar.Day
import FlowScript.Calendar.Moment
import FlowScript.Calendar.Pattern
import FlowScript.Calendar.Reading
import FlowScript.Calendar.Date
import FlowScript.Token
import FlowScript.Token.Lexer
import FlowScript.Expr
import FlowScript.Expr.Parser
import FlowScript.Value
import FlowScript.RunError
import FlowScript.Entries
import FlowScript.Store
import FlowScript.Operator.Adjust
import FlowScript.Operator.Scalar
import FlowScript.Operator.Broadcast
import FlowScript.Member
import FlowScript.SystemVariable
import FlowScript.Scope
import FlowScript.Scope.Stack
import FlowScript.Machine.Event
import FlowScript.Machine
import FlowScript.Signature
import FlowScript.Function
import FlowScript.Library.Standard
import FlowScript.Evaluate
import FlowScript.Script
import FlowScript.Console.Completeness
import FlowScript.Console.Color
import FlowScript.Console.Session
import FlowScript.CommandLine
import FlowScript.CommandLine.Folder
import FlowScript.Main
import FlowScript.Proofs.Store.Change
import FlowScript.Proofs.Broadcast.Commit
import FlowScript.Proofs.Broadcast.Plan
import FlowScript.Proofs.Broadcast.Elementwise
import FlowScript.Proofs.Member.Assign
import FlowScript.Proofs.Member.Outside
import FlowScript.Proofs.Member.Cycle
import FlowScript.Proofs.Machine.Sound
import FlowScript.Proofs.Evaluation.Asks
import FlowScript.Proofs.Library.Sound
import FlowScript.Proofs.Evaluation.Layer
import FlowScript.Proofs.Evaluation.Run
import FlowScript.Proofs.Store.Walk
import FlowScript.Proofs.Evaluation.Termination
import FlowScript.Proofs.Grammar.Phrase
import FlowScript.Proofs.Parser.Steps
import FlowScript.Proofs.Parser.Sound
import FlowScript.Proofs.Parser.Complete
import FlowScript.Proofs.Parser.Cursor
import FlowScript.Proofs.Parser.Lookahead
import FlowScript.Proofs.Parser.Viable
import FlowScript.Proofs.Machine.Step
import FlowScript.Proofs.Library.Stepwise
import FlowScript.Proofs.Evaluation.Lengths
import FlowScript.Proofs.Lexer.Block
import FlowScript.Proofs.Lexer.Layout
import FlowScript.Proofs.Scope.Frames
import FlowScript.Proofs.Scope.History
import FlowScript.Proofs.Scope.Stack
import FlowScript.Proofs.Machine.Alike
import FlowScript.Proofs.Library.Blind
import FlowScript.Proofs.Evaluation.Independence
import FlowScript.Proofs.Grammar.Brackets
import FlowScript.Proofs.Lexer.Ending
import FlowScript.Proofs.Text.Blank
import FlowScript.Proofs.Text.Lines
import FlowScript.Proofs.Console.Scan
import FlowScript.Proofs.Console.HandOver
import FlowScript.Proofs.Console.Buffering
import FlowScript.Proofs.Console.History
import FlowScript.Proofs.Number.Bits
import FlowScript.Proofs.Number.Rounding
import FlowScript.Proofs.Number.Shortest
import FlowScript.Proofs.Number.ReadBack
import FlowScript.Proofs.Source.Words
import FlowScript.Proofs.Source.Print
import FlowScript.Proofs.Source.RoundTrip
import FlowScript.Proofs.Lexer.Isolation
import FlowScript.Proofs.Evaluation.Loop
import FlowScript.Proofs.Member.Path
import FlowScript.Proofs.Evaluation.Compound
import FlowScript.Proofs.Library.ByName
import FlowScript.Proofs.Evaluation.Unlogged
import FlowScript.Proofs.Signature.Overload
import FlowScript.Proofs.Evaluation.Sequence
import FlowScript.Proofs.Evaluation.Branches
import FlowScript.Proofs.Evaluation.Echo
import FlowScript.Proofs.Operator.Outcome
import FlowScript.Proofs.Operator.Comparison
import FlowScript.Proofs.Dictionary.History
import FlowScript.Proofs.Number.Whole
import FlowScript.Proofs.Text.Occurrence
import FlowScript.Proofs.Text.Hex
import FlowScript.Proofs.Console.Marks
import FlowScript.Proofs.Source.Caret
import FlowScript.Proofs.Calendar.Written
import FlowScript.Proofs.Calendar.Precision
