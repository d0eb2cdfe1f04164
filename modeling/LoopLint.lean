import LoopLint.Check
import LoopLint.Command.Arguments
import LoopLint.Command.Check
import LoopLint.Command.Help
import LoopLint.Command.Program
import LoopLint.Decimal.Binary
import LoopLint.Decimal.Shortest
import LoopLint.Diagnostic.Basic
import LoopLint.Diagnostic.Json
import LoopLint.Discovery.Files
import LoopLint.Discovery.Selection
import LoopLint.Discovery.Settings
import LoopLint.Environment.Basic
import LoopLint.Environment.Entry
import LoopLint.Environment.Snapshot
import LoopLint.Failure
import LoopLint.Glob.Basic
import LoopLint.Glob.Parse
import LoopLint.Ignore.File
import LoopLint.Ignore.Global
import LoopLint.Ignore.Repository
import LoopLint.Ignore.Rule
import LoopLint.Ignore.Scope
import LoopLint.Json.Basic
import LoopLint.Json.Decode
import LoopLint.Json.Parse
import LoopLint.Language
import LoopLint.Log.Directive
import LoopLint.Log.Entry
import LoopLint.Log.Filter
import LoopLint.Loop.Counted
import LoopLint.Loop.Event
import LoopLint.Loop.Usage
import LoopLint.Loop.Walk
import LoopLint.Main
import LoopLint.Outcome
import LoopLint.Path.Basic
import LoopLint.Proofs.Command.Isolation
import LoopLint.Proofs.Command.Outcomes
import LoopLint.Proofs.Command.Run
import LoopLint.Proofs.Command.Schedule
import LoopLint.Proofs.Command.StrictOrder
import LoopLint.Proofs.Command.StructuredOutput
import LoopLint.Proofs.Diagnostic.Order
import LoopLint.Proofs.Discovery.Exclusion
import LoopLint.Proofs.Discovery.Fallback
import LoopLint.Proofs.Discovery.Found
import LoopLint.Proofs.Discovery.Language
import LoopLint.Proofs.Discovery.Nearest
import LoopLint.Proofs.Discovery.Reach
import LoopLint.Proofs.Discovery.Selection
import LoopLint.Proofs.Discovery.Workers
import LoopLint.Proofs.Environment.Rewrite
import LoopLint.Proofs.Environment.Straight
import LoopLint.Proofs.Json.RoundTrip
import LoopLint.Proofs.Loop.Binding
import LoopLint.Proofs.Loop.Counting
import LoopLint.Proofs.Loop.Findings
import LoopLint.Proofs.Loop.Grouping
import LoopLint.Proofs.Loop.Header
import LoopLint.Proofs.Loop.Independence
import LoopLint.Proofs.Loop.Layout
import LoopLint.Proofs.Loop.Meaning
import LoopLint.Proofs.Loop.Overlooked
import LoopLint.Proofs.Loop.Placement
import LoopLint.Proofs.Loop.Recast
import LoopLint.Proofs.Loop.Renaming
import LoopLint.Proofs.Loop.Run
import LoopLint.Proofs.Loop.Scopes
import LoopLint.Proofs.Loop.Spelling
import LoopLint.Proofs.Loop.Visit
import LoopLint.Proofs.Loop.Written
import LoopLint.Proofs.Path.Ancestors
import LoopLint.Proofs.Path.Canonical
import LoopLint.Proofs.Path.Shortening
import LoopLint.Proofs.Report.Caches
import LoopLint.Proofs.Report.Document
import LoopLint.Proofs.Report.Lines
import LoopLint.Proofs.Report.Names
import LoopLint.Proofs.Report.Summary
import LoopLint.Proofs.Sorting
import LoopLint.Proofs.Suppression.Coverage
import LoopLint.Proofs.Suppression.Filter
import LoopLint.Proofs.Suppression.Recognition
import LoopLint.Proofs.Suppression.Renaming
import LoopLint.Proofs.Syntax.Bare
import LoopLint.Proofs.Syntax.Cursor
import LoopLint.Proofs.Syntax.Descent
import LoopLint.Proofs.Syntax.Editing
import LoopLint.Proofs.Syntax.Grammar
import LoopLint.Proofs.Syntax.Grouping
import LoopLint.Proofs.Syntax.Recast
import LoopLint.Proofs.Syntax.Renaming
import LoopLint.Proofs.Syntax.Spans
import LoopLint.Proofs.Syntax.Words
import LoopLint.Proofs.Text.Position
import LoopLint.Report.Basic
import LoopLint.Report.Format
import LoopLint.Report.Paint
import LoopLint.Report.Snippet
import LoopLint.Settings.Basic
import LoopLint.Suppression
import LoopLint.Syntax.Kind
import LoopLint.Syntax.Node
import LoopLint.Syntax.Tree
import LoopLint.Text.Alphanumeric
import LoopLint.Text.Blank
import LoopLint.Text.CharRange
import LoopLint.Text.Extender
import LoopLint.Text.Offset
import LoopLint.Text.Quoted
import LoopLint.Text.Split
import LoopLint.Text.Unseen
import LoopLint.Text.Width
import LoopLint.Toml.Document
import LoopLint.Toml.Excerpt
import LoopLint.Toml.Number
import LoopLint.Toml.Scanner
import LoopLint.Toml.Text
import LoopLint.Toml.Value
