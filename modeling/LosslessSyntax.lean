import LosslessSyntax.Text.Basic
import LosslessSyntax.Text.Lines
import LosslessSyntax.Text.Position
import LosslessSyntax.Text.Slice
import LosslessSyntax.Text.CharRanges
import LosslessSyntax.Text.IdentifierStart
import LosslessSyntax.Text.IdentifierContinue
import LosslessSyntax.Text.Unprinted
import LosslessSyntax.Text.Identifier
import LosslessSyntax.Text.Quoted
import LosslessSyntax.LineDiff
import LosslessSyntax.Token.Word
import LosslessSyntax.Token.Kind
import LosslessSyntax.Token.Flags
import LosslessSyntax.Diagnostic.Template
import LosslessSyntax.Diagnostic.Basic
import LosslessSyntax.Diagnostic.Catalogue
import LosslessSyntax.Token.Basic
import LosslessSyntax.Token.Reading
import LosslessSyntax.Token.Scanner
import LosslessSyntax.Grammar.Classes
import LosslessSyntax.Grammar.Tier
import LosslessSyntax.Grammar.Form
import LosslessSyntax.Tree.Lexeme
import LosslessSyntax.Tree.Node
import LosslessSyntax.Tree.Part
import LosslessSyntax.Tree.Walk
import LosslessSyntax.Tree.Shape
import LosslessSyntax.Tree.Closure
import LosslessSyntax.Parse.Trivia
import LosslessSyntax.Parse.Cursor
import LosslessSyntax.Parse.Rule
import LosslessSyntax.Parse.Level
import LosslessSyntax.Parse.Sequence
import LosslessSyntax.Parse.Block
import LosslessSyntax.Parse.Expression
import LosslessSyntax.Parse.Statement
import LosslessSyntax.Parse.Nesting
import LosslessSyntax.Parse.Program
import LosslessSyntax.Error
import LosslessSyntax.Report
import LosslessSyntax.Check
import LosslessSyntax.Check.Headline
import LosslessSyntax.Main
import LosslessSyntax.Proofs.Text.Address
import LosslessSyntax.Proofs.Text.PositionOrder
import LosslessSyntax.Proofs.Text.Slice
import LosslessSyntax.Proofs.Token.Cover
import LosslessSyntax.Proofs.Parse.Slicing
import LosslessSyntax.Proofs.Parse.Triple
import LosslessSyntax.Proofs.Parse.Climbing
import LosslessSyntax.Proofs.Tree.Flaw
import LosslessSyntax.Proofs.Tree.Trailing
import LosslessSyntax.Proofs.Parse.Account
import LosslessSyntax.Proofs.Parse.Account.Rule
import LosslessSyntax.Proofs.Parse.Account.Block
import LosslessSyntax.Proofs.Parse.Account.Expression
import LosslessSyntax.Proofs.Parse.Account.Statement
import LosslessSyntax.Proofs.Parse.Account.Program
import LosslessSyntax.Proofs.Token.Fault
import LosslessSyntax.Proofs.Restoration
import LosslessSyntax.Proofs.Strictness
import LosslessSyntax.Proofs.Token.Orthography
import LosslessSyntax.Proofs.Tree.Everywhere
import LosslessSyntax.Proofs.Parse.Result
import LosslessSyntax.Proofs.Tree.Precedence
import LosslessSyntax.Proofs.Parse.Precedence
import LosslessSyntax.Proofs.Parse.Invariant
import LosslessSyntax.Proofs.Tree.Nesting
import LosslessSyntax.Proofs.Parse.Limited
import LosslessSyntax.Proofs.Parse.Sort
import LosslessSyntax.Proofs.Parse.Chain
import LosslessSyntax.Proofs.Parse.Depth
import LosslessSyntax.Proofs.Parse.Room
import LosslessSyntax.Proofs.NestingLimit
import LosslessSyntax.Proofs.Token.Cue
import LosslessSyntax.Proofs.Tree.Bare
import LosslessSyntax.Proofs.Parse.Matching
import LosslessSyntax.Proofs.Parse.Coupled
import LosslessSyntax.Proofs.Parse.Blind
import LosslessSyntax.Proofs.Spacing
import LosslessSyntax.Proofs.Token.Allowed
import LosslessSyntax.Proofs.Tree.WellFormed
import LosslessSyntax.Proofs.Parse.Facing
import LosslessSyntax.Proofs.Parse.Completeness
import LosslessSyntax.Proofs.RoundTrip
import LosslessSyntax.Proofs.Text.LineCount
import LosslessSyntax.Proofs.Token.LineBreak
import LosslessSyntax.Proofs.Positions
import LosslessSyntax.Proofs.Parse.Congruence
import LosslessSyntax.Proofs.Parse.Extension
import LosslessSyntax.Proofs.LargerLimit
import LosslessSyntax.Proofs.Tree.Placement
import LosslessSyntax.Proofs.Tree.Layout
import LosslessSyntax.Proofs.Parse.Layout
import LosslessSyntax.Proofs.Layout
import LosslessSyntax.Proofs.Faults
import LosslessSyntax.Proofs.Text.Lines
import LosslessSyntax.Proofs.Check.Headline
import LosslessSyntax.Proofs.Verdict
import LosslessSyntax.Proofs.Parse.Scheme
import LosslessSyntax.Proofs.Parse.Machine
import LosslessSyntax.Proofs.Parse.Run
import LosslessSyntax.Proofs.Parse.ProgramRun
import LosslessSyntax.Proofs.StateInvariant
import LosslessSyntax.Proofs.Diagnostic.Order
import LosslessSyntax.Proofs.Parse.Notes
import LosslessSyntax.Proofs.DiagnosticOrder
import LosslessSyntax.Proofs.Tree.Attachment
import LosslessSyntax.Proofs.Token.Trivia
import LosslessSyntax.Proofs.Parse.TrailingComments
import LosslessSyntax.Proofs.Parse.ElseIf
import LosslessSyntax.Proofs.Parse.Indifference
import LosslessSyntax.Proofs.Tree.Materialized
import LosslessSyntax.Proofs.Parse.Yield
import LosslessSyntax.Proofs.Parse.Materialization
import LosslessSyntax.Proofs.Comments
import LosslessSyntax.Proofs.Materialization
import LosslessSyntax.Proofs.Parse.Loop
import LosslessSyntax.Proofs.Progress
import LosslessSyntax.Proofs.Tree.Occurrence
import LosslessSyntax.Proofs.Tree.Suitability
import LosslessSyntax.Proofs.Parse.Survey
import LosslessSyntax.Proofs.Parse.Survey.Expression
import LosslessSyntax.Proofs.Parse.Survey.Statement
import LosslessSyntax.Proofs.Parse.Survey.Program
import LosslessSyntax.Proofs.Recovery
import LosslessSyntax.Proofs.LineBreaks
import LosslessSyntax.Proofs.FirstLexeme
import LosslessSyntax.Proofs.Text.Bytes
import LosslessSyntax.Proofs.Token.ByteSearch
import LosslessSyntax.Proofs.Token.Longest
import LosslessSyntax.Proofs.CommentEnds
import LosslessSyntax.Proofs.Numbers
import LosslessSyntax.Proofs.Strings
import LosslessSyntax.Proofs.Symbols
import LosslessSyntax.Proofs.Boundaries
import LosslessSyntax.Proofs.LineDiff
import LosslessSyntax.Proofs.UnlocatedDiagnostics
import LosslessSyntax.Proofs.Text.Replacement
import LosslessSyntax.Proofs.Templates
