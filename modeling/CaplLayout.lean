import CaplLayout.CommandLine
import CaplLayout.Config
import CaplLayout.Console
import CaplLayout.Decimal.Binary64
import CaplLayout.Decimal.Integer
import CaplLayout.Diff
import CaplLayout.Doc
import CaplLayout.Edit
import CaplLayout.Engine
import CaplLayout.ExitCode
import CaplLayout.Failure
import CaplLayout.Files.Basic
import CaplLayout.Files.Glob
import CaplLayout.Formatter
import CaplLayout.Keyed
import CaplLayout.Main
import CaplLayout.Proofs.Blocks
import CaplLayout.Proofs.Boundary
import CaplLayout.Proofs.Braces
import CaplLayout.Proofs.Canonical
import CaplLayout.Proofs.Cleanup
import CaplLayout.Proofs.Configuration
import CaplLayout.Proofs.Cursor
import CaplLayout.Proofs.CursorLine
import CaplLayout.Proofs.Descent
import CaplLayout.Proofs.Directives
import CaplLayout.Proofs.Document
import CaplLayout.Proofs.Encoding
import CaplLayout.Proofs.Exits
import CaplLayout.Proofs.Expansion
import CaplLayout.Proofs.FirstError
import CaplLayout.Proofs.Forecast
import CaplLayout.Proofs.Frame
import CaplLayout.Proofs.Front
import CaplLayout.Proofs.History
import CaplLayout.Proofs.Levels
import CaplLayout.Proofs.Lines
import CaplLayout.Proofs.Literals
import CaplLayout.Proofs.Locality
import CaplLayout.Proofs.Margins
import CaplLayout.Proofs.Messages
import CaplLayout.Proofs.Offsets
import CaplLayout.Proofs.Outline
import CaplLayout.Proofs.Passes
import CaplLayout.Proofs.Places
import CaplLayout.Proofs.Printing
import CaplLayout.Proofs.Processing
import CaplLayout.Proofs.Quoting
import CaplLayout.Proofs.Reindent
import CaplLayout.Proofs.Rejection
import CaplLayout.Proofs.Rendering
import CaplLayout.Proofs.Replacement
import CaplLayout.Proofs.Rows
import CaplLayout.Proofs.Selecting
import CaplLayout.Proofs.SelfCheck
import CaplLayout.Proofs.Settle
import CaplLayout.Proofs.Shapes
import CaplLayout.Proofs.Skeleton
import CaplLayout.Proofs.Spelling
import CaplLayout.Proofs.Splice
import CaplLayout.Proofs.Stability
import CaplLayout.Proofs.StandardInput
import CaplLayout.Proofs.Unfiltered
import CaplLayout.Proofs.Visits
import CaplLayout.Proofs.Ways
import CaplLayout.Proofs.Writes
import CaplLayout.Rule.Basic
import CaplLayout.Rule.Custom
import CaplLayout.Rule.Indentation
import CaplLayout.Rule.Whitespace
import CaplLayout.Run.Controller
import CaplLayout.Run.Options
import CaplLayout.Run.Process
import CaplLayout.Run.Selection
import CaplLayout.Run.Session
import CaplLayout.Scan
import CaplLayout.Settings.Basic
import CaplLayout.Settings.Check
import CaplLayout.Settings.Value
import CaplLayout.Syntax.C.Atom
import CaplLayout.Syntax.C.Directive
import CaplLayout.Syntax.C.Expression
import CaplLayout.Syntax.C.Grammar
import CaplLayout.Syntax.C.Literal
import CaplLayout.Syntax.C.Parse
import CaplLayout.Syntax.C.Statement
import CaplLayout.Syntax.C.Token
import CaplLayout.Syntax.C.Type
import CaplLayout.Syntax.C.Word
import CaplLayout.Syntax.Tree
import CaplLayout.Text.Basic
import CaplLayout.Text.Identifier
import CaplLayout.Text.Path
import CaplLayout.Text.Printable
import CaplLayout.Text.Quoted
import CaplLayout.Text.Space
import CaplLayout.Text.Utf8
import CaplLayout.Toml.Atom
import CaplLayout.Toml.Document
import CaplLayout.Toml.Fault
import CaplLayout.Toml.Number
import CaplLayout.Toml.Reader
