import LiteralAudit.AllowedValues
import LiteralAudit.Audit.Breakable
import LiteralAudit.Audit.File
import LiteralAudit.Audit.Lines
import LiteralAudit.Audit.Outcome
import LiteralAudit.Audit.Summary
import LiteralAudit.Audit.Yaml
import LiteralAudit.CommandLine
import LiteralAudit.CommandLine.Reading
import LiteralAudit.CommandLine.Usage
import LiteralAudit.Config
import LiteralAudit.Config.Loading
import LiteralAudit.Config.Reading
import LiteralAudit.Decimal.Notation
import LiteralAudit.Decimal.Reading
import LiteralAudit.Decimal.Shortest
import LiteralAudit.DesignTokens
import LiteralAudit.Detector
import LiteralAudit.Diagnostic
import LiteralAudit.Failure
import LiteralAudit.FileSystem
import LiteralAudit.FileTree
import LiteralAudit.Glob
import LiteralAudit.Glob.Expression
import LiteralAudit.Glob.Reading
import LiteralAudit.Glob.Token
import LiteralAudit.IoFault
import LiteralAudit.Json
import LiteralAudit.Json.Reader
import LiteralAudit.Json.Writer
import LiteralAudit.Main
import LiteralAudit.Path
import LiteralAudit.PathMap
import LiteralAudit.Pattern
import LiteralAudit.Report.Data
import LiteralAudit.Report.Format
import LiteralAudit.Report.Ink
import LiteralAudit.Report.Notice
import LiteralAudit.Report.Plain
import LiteralAudit.Rule
import LiteralAudit.Run
import LiteralAudit.Run.Audit
import LiteralAudit.Run.World
import LiteralAudit.Run.Yaml
import LiteralAudit.Scan.Filter
import LiteralAudit.Scan.GlobalIgnore
import LiteralAudit.Scan.IgnoreFile
import LiteralAudit.Scan.Walk
import LiteralAudit.Suppression
import LiteralAudit.Text.Basic
import LiteralAudit.Text.Blank
import LiteralAudit.Text.CaseTable
import LiteralAudit.Text.Line
import LiteralAudit.Text.Lower
import LiteralAudit.Text.PrintTable
import LiteralAudit.Text.Quote
import LiteralAudit.Text.Utf8
import LiteralAudit.Text.Word
import LiteralAudit.Text.WordTable
import LiteralAudit.Toml.DateTime
import LiteralAudit.Toml.Fault
import LiteralAudit.Toml.Quoted
import LiteralAudit.Toml.Scalar
import LiteralAudit.Toml.Statement
import LiteralAudit.Toml.Table
import LiteralAudit.Toml.Token
import LiteralAudit.UserPlaces
import LiteralAudit.Yaml.Cursor
import LiteralAudit.Yaml.Document
import LiteralAudit.Yaml.Document.Value
import LiteralAudit.Yaml.Event
import LiteralAudit.Yaml.Event.Stream
import LiteralAudit.Yaml.Reader
import LiteralAudit.Yaml.Scalar
import LiteralAudit.Yaml.SyntaxFault
import LiteralAudit.Yaml.Token
import LiteralAudit.Yaml.Token.Anchor
import LiteralAudit.Yaml.Token.Block
import LiteralAudit.Yaml.Token.Directive
import LiteralAudit.Yaml.Token.Folding
import LiteralAudit.Yaml.Token.Plain
import LiteralAudit.Yaml.Token.Quoted
import LiteralAudit.Yaml.Token.Stream
import LiteralAudit.Yaml.Token.Tag
import LiteralAudit.Yaml.Value
import LiteralAudit.Proofs.DesignTokens.Leaves
import LiteralAudit.Proofs.AllowedValues.Colors
import LiteralAudit.Proofs.Pattern.Takes
import LiteralAudit.Proofs.Pattern.Search
import LiteralAudit.Proofs.Pattern.Within
import LiteralAudit.Proofs.Detector.Report
import LiteralAudit.Proofs.Pattern.Word
import LiteralAudit.Proofs.Detector.LegacyYaml
import LiteralAudit.Proofs.Pattern.Color
import LiteralAudit.Proofs.Pattern.Pixels
import LiteralAudit.Proofs.Pattern.Radius
import LiteralAudit.Proofs.Detector.DesignTokens
import LiteralAudit.Proofs.AllowedValues.Pixels
import LiteralAudit.Proofs.Detector.Pixels
import LiteralAudit.Proofs.Path.Order
import LiteralAudit.Proofs.Detector.Sanctioned
import LiteralAudit.Proofs.Audit.Summary
import LiteralAudit.Proofs.Audit.Lines
import LiteralAudit.Proofs.Detector.Located
import LiteralAudit.Proofs.Audit.Located
import LiteralAudit.Proofs.Text.Line
import LiteralAudit.Proofs.Text.Utf8
import LiteralAudit.Proofs.Report.Written
import LiteralAudit.Proofs.Audit.File
import LiteralAudit.Proofs.Audit.Yaml
import LiteralAudit.Proofs.Report.Yaml
import LiteralAudit.Proofs.Run.Exit
import LiteralAudit.Proofs.Run.Yaml
import LiteralAudit.Proofs.Audit.Totals
import LiteralAudit.Proofs.Run.Audit
import LiteralAudit.Proofs.Audit.Allowed
import LiteralAudit.Proofs.Json.Canonical
import LiteralAudit.Proofs.Json.Scalars
import LiteralAudit.Proofs.Json.RoundTrip
import LiteralAudit.Proofs.Report.Lossless
import LiteralAudit.Proofs.Report.Truncated
import LiteralAudit.Proofs.Path.Below
import LiteralAudit.Proofs.FileTree.Places
import LiteralAudit.Proofs.Scan.Places
import LiteralAudit.Proofs.Scan.Filter
import LiteralAudit.Proofs.Scan.Selection
import LiteralAudit.Proofs.Scan.Plain
import LiteralAudit.Proofs.Scan.Ignoring
import LiteralAudit.Proofs.Path.Spelling
import LiteralAudit.Proofs.FileSystem.Following
import LiteralAudit.Proofs.Scan.Relative
import LiteralAudit.Proofs.Audit.Moved
import LiteralAudit.Proofs.Scan.Spelling
import LiteralAudit.Proofs.FileSystem.Differing
import LiteralAudit.Proofs.Run.Frame
import LiteralAudit.Proofs.Yaml.Cursor
import LiteralAudit.Proofs.Yaml.Token
import LiteralAudit.Proofs.Yaml.Scan
import LiteralAudit.Proofs.Yaml.Event
import LiteralAudit.Proofs.Yaml.Document
import LiteralAudit.Proofs.Yaml.Lines
import LiteralAudit.Proofs.Yaml.Idle
import LiteralAudit.Proofs.Yaml.Count
import LiteralAudit.Proofs.Ends
import LiteralAudit.Proofs.Text.Break
import LiteralAudit.Proofs.Audit.Breaks
import LiteralAudit.Proofs.Suppression
import LiteralAudit.Proofs.Json.Nesting
import LiteralAudit.Proofs.Run.Tokens
import LiteralAudit.Proofs.Toml.Orderly
import LiteralAudit.Proofs.Config.Schema
import LiteralAudit.Proofs.Config.Reading
import LiteralAudit.Proofs.Config.Sensible
import LiteralAudit.Proofs.Glob.Nested
import LiteralAudit.Proofs.Run.Effective
import LiteralAudit.Proofs.Run.Settings
import LiteralAudit.Proofs.Audit.Bytes
import LiteralAudit.Proofs.Audit.Insertions
import LiteralAudit.Proofs.Report.Ink
import LiteralAudit.Proofs.Run.Refused
import LiteralAudit.Proofs.Audit.Breakable
