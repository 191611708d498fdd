import StaticConfig.Command.Arguments
import StaticConfig.Command.Run
import StaticConfig.Evaluation.Call
import StaticConfig.Evaluation.Evaluate
import StaticConfig.Evaluation.Member
import StaticConfig.Evaluation.Operation
import StaticConfig.Evaluation.Step
import StaticConfig.Extract
import StaticConfig.Fault
import StaticConfig.Json
import StaticConfig.Main
import StaticConfig.Number.Arithmetic
import StaticConfig.Number.Basic
import StaticConfig.Number.Decimal
import StaticConfig.Number.Text
import StaticConfig.Path
import StaticConfig.Project.Basic
import StaticConfig.Project.Directory
import StaticConfig.Project.Load
import StaticConfig.Project.Resolve
import StaticConfig.Project.Sources
import StaticConfig.Project.Specifier
import StaticConfig.Project.Spelling
import StaticConfig.Proofs.Command.Extraction
import StaticConfig.Proofs.Command.Grammar
import StaticConfig.Proofs.Evaluation.Account
import StaticConfig.Proofs.Evaluation.Agreement
import StaticConfig.Proofs.Evaluation.Coincidence
import StaticConfig.Proofs.Evaluation.Confinement
import StaticConfig.Proofs.Evaluation.Coupling.Calls
import StaticConfig.Proofs.Evaluation.Coupling.Rules
import StaticConfig.Proofs.Evaluation.Coupling.Runs
import StaticConfig.Proofs.Evaluation.Depth
import StaticConfig.Proofs.Evaluation.Element
import StaticConfig.Proofs.Evaluation.Frames
import StaticConfig.Proofs.Evaluation.Invariant
import StaticConfig.Proofs.Evaluation.Iteration
import StaticConfig.Proofs.Evaluation.Knowledge
import StaticConfig.Proofs.Evaluation.Levels
import StaticConfig.Proofs.Evaluation.Likeness
import StaticConfig.Proofs.Evaluation.Limit
import StaticConfig.Proofs.Evaluation.Observed
import StaticConfig.Proofs.Evaluation.Pairing
import StaticConfig.Proofs.Evaluation.Parents
import StaticConfig.Proofs.Evaluation.Reference
import StaticConfig.Proofs.Evaluation.Resemblance
import StaticConfig.Proofs.Evaluation.Scoping
import StaticConfig.Proofs.Evaluation.Session
import StaticConfig.Proofs.Evaluation.Simulation.Run
import StaticConfig.Proofs.Evaluation.Simulation.Same
import StaticConfig.Proofs.Evaluation.Simulation.Step
import StaticConfig.Proofs.Evaluation.Slicing
import StaticConfig.Proofs.Evaluation.Spread
import StaticConfig.Proofs.Evaluation.Stored
import StaticConfig.Proofs.Evaluation.Switch
import StaticConfig.Proofs.Evaluation.Termination
import StaticConfig.Proofs.Evaluation.Traceback
import StaticConfig.Proofs.Evaluation.Writes
import StaticConfig.Proofs.Number.Digits
import StaticConfig.Proofs.Number.Display
import StaticConfig.Proofs.Number.Equality
import StaticConfig.Proofs.Number.Grammar
import StaticConfig.Proofs.Number.Interval
import StaticConfig.Proofs.Number.Layout
import StaticConfig.Proofs.Number.Monotone
import StaticConfig.Proofs.Number.Radix
import StaticConfig.Proofs.Number.Reading
import StaticConfig.Proofs.Number.RoundTrip
import StaticConfig.Proofs.Number.Rounding
import StaticConfig.Proofs.Number.Shortest
import StaticConfig.Proofs.Number.Value
import StaticConfig.Proofs.Number.Whole
import StaticConfig.Proofs.Number.Wrapping
import StaticConfig.Proofs.Path.Location
import StaticConfig.Proofs.Path.Normal
import StaticConfig.Proofs.Path.Spelling
import StaticConfig.Proofs.Project.Circles
import StaticConfig.Proofs.Project.Derivation
import StaticConfig.Proofs.Project.LaidOut
import StaticConfig.Proofs.Project.Layout
import StaticConfig.Proofs.Project.Loading
import StaticConfig.Proofs.Project.Locality
import StaticConfig.Proofs.Project.Search
import StaticConfig.Proofs.Project.SourceOrder
import StaticConfig.Proofs.Project.Specifiers
import StaticConfig.Proofs.Project.Spelling
import StaticConfig.Proofs.Project.Unwrapped
import StaticConfig.Proofs.Project.Variables
import StaticConfig.Proofs.Project.Writing
import StaticConfig.Proofs.Snippet
import StaticConfig.Proofs.Source.Layout.Declaration
import StaticConfig.Proofs.Source.Layout.Element
import StaticConfig.Proofs.Source.Layout.Expression
import StaticConfig.Proofs.Source.Layout.Fit
import StaticConfig.Proofs.Source.Layout.Literal
import StaticConfig.Proofs.Source.Layout.Module
import StaticConfig.Proofs.Source.Layout.Operand
import StaticConfig.Proofs.Source.Layout.Passing
import StaticConfig.Proofs.Source.Layout.Statement
import StaticConfig.Proofs.Source.Marks
import StaticConfig.Proofs.Source.Nesting
import StaticConfig.Proofs.Source.Pieces
import StaticConfig.Proofs.Source.Progress
import StaticConfig.Proofs.Source.Reading
import StaticConfig.Proofs.Source.Unwrap
import StaticConfig.Proofs.Text.Trimming
import StaticConfig.Proofs.Value.Document
import StaticConfig.Proofs.Value.Equality
import StaticConfig.Proofs.Value.Induction
import StaticConfig.Proofs.Value.Levels
import StaticConfig.Proofs.Value.Record
import StaticConfig.Proofs.Value.Sharing
import StaticConfig.Proofs.Value.Storage
import StaticConfig.Record
import StaticConfig.Scope
import StaticConfig.Source.Kind
import StaticConfig.Source.Lexer
import StaticConfig.Source.Nesting
import StaticConfig.Source.Operator
import StaticConfig.Source.Parser
import StaticConfig.Source.Parser.Access
import StaticConfig.Source.Parser.Class
import StaticConfig.Source.Parser.Declaration
import StaticConfig.Source.Parser.Element
import StaticConfig.Source.Parser.Expression
import StaticConfig.Source.Parser.Grammar
import StaticConfig.Source.Parser.Item
import StaticConfig.Source.Parser.Literal
import StaticConfig.Source.Parser.Operand
import StaticConfig.Source.Parser.Pattern
import StaticConfig.Source.Parser.State
import StaticConfig.Source.Parser.Statement
import StaticConfig.Source.Parser.Type
import StaticConfig.Source.Token
import StaticConfig.Source.TokenStream
import StaticConfig.Source.Tree
import StaticConfig.Text.Blank
import StaticConfig.Text.Case
import StaticConfig.Text.CaseTable
import StaticConfig.Text.Identifier
import StaticConfig.Text.Printable
import StaticConfig.Text.Quoted
import StaticConfig.Text.Ranges
import StaticConfig.Value.Basic
import StaticConfig.Value.Debug
import StaticConfig.Value.Equality
import StaticConfig.Value.Json
