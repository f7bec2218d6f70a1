import SourceMetrics.Command.Arguments
import SourceMetrics.Command.Run
import SourceMetrics.Decimal.Rounding
import SourceMetrics.Decimal.Shortest
import SourceMetrics.Decimal.Writing
import SourceMetrics.Files.FileSystem
import SourceMetrics.Files.Path
import SourceMetrics.Glob.Match
import SourceMetrics.Glob.Pattern
import SourceMetrics.JavaScript.Comment
import SourceMetrics.JavaScript.Kinds
import SourceMetrics.JavaScript.Scanner
import SourceMetrics.Main
import SourceMetrics.Metric.Amount
import SourceMetrics.Metric.Definition
import SourceMetrics.Metric.Measures
import SourceMetrics.Metric.Registry
import SourceMetrics.Proofs.Scan.Marking
import SourceMetrics.Proofs.Scan.Schedule
import SourceMetrics.Proofs.SyntaxTree.Walk
import SourceMetrics.Report.Json
import SourceMetrics.Report.Paint
import SourceMetrics.Report.Pretty
import SourceMetrics.Report.Structured
import SourceMetrics.Scan.Engine
import SourceMetrics.Scan.Error
import SourceMetrics.Scan.Event
import SourceMetrics.Scan.Parallel
import SourceMetrics.Scan.Scanner
import SourceMetrics.Scan.Session
import SourceMetrics.Scan.Traversal
import SourceMetrics.Settings.Basic
import SourceMetrics.Settings.Reading
import SourceMetrics.SyntaxTree.Conversion
import SourceMetrics.SyntaxTree.Cursor
import SourceMetrics.SyntaxTree.External
import SourceMetrics.SyntaxTree.FirstError
import SourceMetrics.SyntaxTree.Grammar
import SourceMetrics.SyntaxTree.Listing
import SourceMetrics.SyntaxTree.Node
import SourceMetrics.SyntaxTree.Outline
import SourceMetrics.SyntaxTree.Raw
import SourceMetrics.SyntaxTree.Span
import SourceMetrics.SyntaxTree.Walk
import SourceMetrics.Text.CodePoints
import SourceMetrics.Text.LetterOrDigit
import SourceMetrics.Text.Lines
import SourceMetrics.Text.Printable
import SourceMetrics.Text.Quoted
import SourceMetrics.Text.Search
import SourceMetrics.Text.Utf8
import SourceMetrics.Unit.Extraction
import SourceMetrics.Unit.Index
import SourceMetrics.Unit.Kind
import SourceMetrics.Unit.Tree
import SourceMetrics.Visitor.Basic
import SourceMetrics.Visitor.Comments
import SourceMetrics.Visitor.Context
import SourceMetrics.Visitor.Counter
import SourceMetrics.Visitor.LineSet
import SourceMetrics.Visitor.Lines
import SourceMetrics.Visitor.LinesOfCode
import SourceMetrics.Visitor.Plan
import SourceMetrics.Visitor.Scripted
import SourceMetrics.Yaml.Cursor
import SourceMetrics.Yaml.Node
import SourceMetrics.Yaml.Scalar
import SourceMetrics.Yaml.Token
import SourceMetrics.Proofs.Scan.Traversal
import SourceMetrics.Proofs.Metric.Acceptance
import SourceMetrics.Proofs.Metric.Totals
import SourceMetrics.Proofs.Scan.Totals
import SourceMetrics.Proofs.Scan.Freshness
import SourceMetrics.Proofs.Scan.Distribution
import SourceMetrics.Proofs.Unit.Numbering
import SourceMetrics.Proofs.Unit.Insertion
import SourceMetrics.Proofs.Unit.Queries
import SourceMetrics.Proofs.Visitor.Plan
import SourceMetrics.Proofs.Visitor.Writes
import SourceMetrics.Proofs.Scan.Acceptance
import SourceMetrics.Proofs.Visitor.Local
import SourceMetrics.Proofs.Scan.Solo
import SourceMetrics.Proofs.Unit.Agreement
import SourceMetrics.Proofs.Scan.Isolation
import SourceMetrics.Proofs.SyntaxTree.Cursor
import SourceMetrics.Proofs.SyntaxTree.Conversion
import SourceMetrics.Proofs.Metric.Counts
import SourceMetrics.Proofs.Metric.Tally
import SourceMetrics.Proofs.Visitor.LinesOfCode
import SourceMetrics.Proofs.JavaScript.LinesOfCode
import SourceMetrics.Proofs.Scan.History
import SourceMetrics.Proofs.Scan.SiblingKeys
import SourceMetrics.Proofs.Scan.Forgetting
import SourceMetrics.Proofs.Scan.Likeness
import SourceMetrics.Proofs.Scan.Failure
import SourceMetrics.Proofs.Unit.ProjectTotals
import SourceMetrics.Proofs.Visitor.Additive
import SourceMetrics.Proofs.Scan.Regrouping
import SourceMetrics.Proofs.Scan.InOrder
import SourceMetrics.Proofs.Scan.FileOrder
import SourceMetrics.Proofs.Scan.Cancellation
import SourceMetrics.Proofs.Scan.Ownership
import SourceMetrics.Proofs.Scan.Skipping
import SourceMetrics.Proofs.Scan.Hierarchy
import SourceMetrics.Proofs.Files.Path
import SourceMetrics.Proofs.Files.Collection
import SourceMetrics.Proofs.Metric.FloatCounts
import SourceMetrics.Proofs.Report.Structured
import SourceMetrics.Proofs.Scan.FileTally
import SourceMetrics.Proofs.Command.Run
import SourceMetrics.Proofs.Scan.Places
import SourceMetrics.Proofs.Visitor.Counting
import SourceMetrics.Proofs.Visitor.Comments
import SourceMetrics.Proofs.Visitor.FirstLines
import SourceMetrics.Proofs.JavaScript.Units
import SourceMetrics.Proofs.Scan.SessionTotals
import SourceMetrics.Proofs.JavaScript.Functions
import SourceMetrics.Proofs.Metric.Settled
import SourceMetrics.Proofs.Scan.Configuration
import SourceMetrics.Proofs.SyntaxTree.FirstError
import SourceMetrics.Proofs.Text.LastLine
import SourceMetrics.Proofs.SyntaxTree.Position
import SourceMetrics.Proofs.SyntaxTree.RootSpan
import SourceMetrics.Proofs.Scan.MarkedLines
import SourceMetrics.Proofs.Scan.SingleFile
import SourceMetrics.Proofs.Report.Pretty
import SourceMetrics.Proofs.Text.Runs
import SourceMetrics.Proofs.Decimal.Shortest
import SourceMetrics.Proofs.Decimal.Writing
import SourceMetrics.Proofs.Decimal.Rounding
import SourceMetrics.Proofs.Decimal.Counts
import SourceMetrics.Proofs.Decimal.Reading
import SourceMetrics.Proofs.Report.Json
import SourceMetrics.Proofs.Report.Reading
import SourceMetrics.Proofs.Report.Paint
import SourceMetrics.Proofs.Report.Trees
import SourceMetrics.Proofs.JavaScript.Comment
import SourceMetrics.Proofs.Scan.Routing
import SourceMetrics.Proofs.Files.Reachable
import SourceMetrics.Proofs.SyntaxTree.Preorder
