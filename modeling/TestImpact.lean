import TestImpact.Analysis
import TestImpact.Calendar
import TestImpact.CommandLine.Command
import TestImpact.CommandLine.Run
import TestImpact.CommandLine.Session
import TestImpact.CommandLine.Words
import TestImpact.Decimal.Binary
import TestImpact.Decimal.Natural
import TestImpact.Decimal.Shortest
import TestImpact.Diagnostic
import TestImpact.Diff.Line
import TestImpact.Diff.Split
import TestImpact.Digest.Sha256
import TestImpact.FileChange
import TestImpact.Files.Access
import TestImpact.Files.Path
import TestImpact.Files.Tree
import TestImpact.Glob.Pattern
import TestImpact.Hosting.Client
import TestImpact.Hosting.Listing
import TestImpact.Json.Decode
import TestImpact.Json.Number
import TestImpact.Json.Parser
import TestImpact.Json.Printer
import TestImpact.Json.Value
import TestImpact.Main
import TestImpact.Patch.Detector
import TestImpact.Patch.Line
import TestImpact.Patch.Signature
import TestImpact.Patch.Span
import TestImpact.Pattern.CharSet
import TestImpact.Pattern.Parser
import TestImpact.Pattern.Search
import TestImpact.Pattern.Syntax
import TestImpact.QualifiedName
import TestImpact.Report.Basic
import TestImpact.Report.Render
import TestImpact.Settings.Basic
import TestImpact.Settings.Effective
import TestImpact.Settings.Parser
import TestImpact.Table.Basic
import TestImpact.Table.Parser
import TestImpact.Text.Blank
import TestImpact.Text.Hex
import TestImpact.Text.Letters
import TestImpact.Text.Lines
import TestImpact.Toml.Decode
import TestImpact.Toml.Parser
import TestImpact.Toml.Scalar
import TestImpact.Toml.Scope
import TestImpact.Toml.Text
import TestImpact.Toml.Value
import TestImpact.Trace.Resolver
import TestImpact.Proofs.Patch.Balance
import TestImpact.Proofs.Patch.Scan
import TestImpact.Proofs.Patch.Meaning
import TestImpact.Proofs.Text.Affix
import TestImpact.Proofs.Text.Pieces
import TestImpact.Proofs.Trace.Outcome
import TestImpact.Proofs.Diff.Written
import TestImpact.Proofs.Diff.Reading
import TestImpact.Proofs.Diff.RoundTrip
import TestImpact.Proofs.Diff.HunkContent
import TestImpact.Proofs.Patch.Hunks
import TestImpact.Proofs.Patch.Heading
import TestImpact.Proofs.Patch.Counters
import TestImpact.Proofs.Table.Grammar
import TestImpact.Proofs.Table.RoundTrip
import TestImpact.Proofs.Patch.Reversal
import TestImpact.Proofs.Diff.Sections
import TestImpact.Proofs.Json.Scalars
import TestImpact.Proofs.Json.RoundTrip
import TestImpact.Proofs.Json.Records
import TestImpact.Proofs.Report.RoundTrip
import TestImpact.Proofs.Hosting.Listing
import TestImpact.Proofs.CommandLine.Sources
import TestImpact.Proofs.Analysis.FileCounts
import TestImpact.Proofs.Analysis.MethodCounts
import TestImpact.Proofs.CommandLine.Reading
import TestImpact.Proofs.CommandLine.Renderings
import TestImpact.Proofs.Files.Writing
import TestImpact.Proofs.CommandLine.Outputs
import TestImpact.Proofs.Pattern.Reading
import TestImpact.Proofs.Patch.Declaration
import TestImpact.Proofs.Patch.Order
import TestImpact.Proofs.Diff.Rejection
import TestImpact.Proofs.Diff.Patches
import TestImpact.Proofs.Patch.Recognition
import TestImpact.Proofs.Diff.Paths
import TestImpact.Proofs.Table.Unquoted
import TestImpact.Proofs.Patch.FlatMethods
import TestImpact.Proofs.Trace.RowOrder
import TestImpact.Proofs.LineEnds
import TestImpact.Proofs.Patch.Namespaces
import TestImpact.Proofs.Settings.Validity
import TestImpact.Proofs.Files.Ancestors
import TestImpact.Proofs.Settings.Discovery
import TestImpact.Proofs.Hosting.Refusal
import TestImpact.Proofs.Hosting.Address
import TestImpact.Proofs.Hosting.FilesUrl
import TestImpact.Proofs.Hosting.DotSegments
import TestImpact.Proofs.Report.Markdown
import TestImpact.Proofs.Report.PlainText
import TestImpact.Proofs.Trace.Fingerprint
