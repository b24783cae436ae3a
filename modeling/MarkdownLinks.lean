import MarkdownLinks.CommandLine.Arguments
import MarkdownLinks.CommandLine.Check
import MarkdownLinks.CommandLine.Help
import MarkdownLinks.CommandLine.Run
import MarkdownLinks.Disk.Basic
import MarkdownLinks.Disk.Edit
import MarkdownLinks.Disk.Error
import MarkdownLinks.Disk.Lookup
import MarkdownLinks.Document
import MarkdownLinks.Failure
import MarkdownLinks.Finding
import MarkdownLinks.Heading
import MarkdownLinks.Inspection.Basic
import MarkdownLinks.Inspection.Link
import MarkdownLinks.Json.Basic
import MarkdownLinks.Json.Fault
import MarkdownLinks.Link.Basic
import MarkdownLinks.Link.Title
import MarkdownLinks.Main
import MarkdownLinks.Path.Basic
import MarkdownLinks.Proofs.CommandLine.Check
import MarkdownLinks.Proofs.CommandLine.Root
import MarkdownLinks.Proofs.Disk.Asked
import MarkdownLinks.Proofs.Disk.Canonical
import MarkdownLinks.Proofs.Disk.Growth
import MarkdownLinks.Proofs.Disk.Placed
import MarkdownLinks.Proofs.Disk.Readable
import MarkdownLinks.Proofs.Disk.Relative
import MarkdownLinks.Proofs.Disk.Slash
import MarkdownLinks.Proofs.Disk.Travel
import MarkdownLinks.Proofs.Disk.Written
import MarkdownLinks.Proofs.Document
import MarkdownLinks.Proofs.Document.History
import MarkdownLinks.Proofs.Document.Joined
import MarkdownLinks.Proofs.Document.Reading
import MarkdownLinks.Proofs.Heading
import MarkdownLinks.Proofs.Heading.LineEnding
import MarkdownLinks.Proofs.Inspection.Advice
import MarkdownLinks.Proofs.Inspection.Cache
import MarkdownLinks.Proofs.Inspection.Extended
import MarkdownLinks.Proofs.Inspection.Fallback
import MarkdownLinks.Proofs.Inspection.Findings
import MarkdownLinks.Proofs.Inspection.Followed
import MarkdownLinks.Proofs.Inspection.Growth
import MarkdownLinks.Proofs.Inspection.Headings
import MarkdownLinks.Proofs.Inspection.Lexical
import MarkdownLinks.Proofs.Inspection.Network
import MarkdownLinks.Proofs.Inspection.Plan
import MarkdownLinks.Proofs.Inspection.Relocation
import MarkdownLinks.Proofs.Inspection.Respelled
import MarkdownLinks.Proofs.Inspection.SelfLink
import MarkdownLinks.Proofs.Inspection.Soundness
import MarkdownLinks.Proofs.Inspection.Stated
import MarkdownLinks.Proofs.Inspection.Suggestion
import MarkdownLinks.Proofs.Inspection.Target
import MarkdownLinks.Proofs.Inspection.Verdict
import MarkdownLinks.Proofs.Json.Reader
import MarkdownLinks.Proofs.Json.Written
import MarkdownLinks.Proofs.Link.LineEnding
import MarkdownLinks.Proofs.Link.Lines
import MarkdownLinks.Proofs.Link.Sources
import MarkdownLinks.Proofs.Link.Spans
import MarkdownLinks.Proofs.Link.Title
import MarkdownLinks.Proofs.Link.Untitled
import MarkdownLinks.Proofs.Link.Written
import MarkdownLinks.Proofs.Path.Ending
import MarkdownLinks.Proofs.Path.Names
import MarkdownLinks.Proofs.Path.Order
import MarkdownLinks.Proofs.Path.Position
import MarkdownLinks.Proofs.Path.Rebase
import MarkdownLinks.Proofs.Path.Relative
import MarkdownLinks.Proofs.Path.Tidy
import MarkdownLinks.Proofs.Report.Color
import MarkdownLinks.Proofs.Report.Folding
import MarkdownLinks.Proofs.Report.Json
import MarkdownLinks.Proofs.Root
import MarkdownLinks.Proofs.Search.Documents
import MarkdownLinks.Proofs.Search.Exact
import MarkdownLinks.Proofs.Search.Exclusion
import MarkdownLinks.Proofs.Search.Relocation
import MarkdownLinks.Proofs.Settings.Extension
import MarkdownLinks.Proofs.Settings.File
import MarkdownLinks.Proofs.Slug
import MarkdownLinks.Proofs.Slug.Composition
import MarkdownLinks.Proofs.Slug.Words
import MarkdownLinks.Proofs.Text.Blank
import MarkdownLinks.Proofs.Text.Decoding
import MarkdownLinks.Proofs.Text.Dropping
import MarkdownLinks.Proofs.Text.LineEnding
import MarkdownLinks.Proofs.Text.Lowercase
import MarkdownLinks.Proofs.Text.Lowercased
import MarkdownLinks.Proofs.Text.Number
import MarkdownLinks.Proofs.Text.Pieces
import MarkdownLinks.Proofs.Text.Utf8
import MarkdownLinks.Proofs.Text.Words
import MarkdownLinks.Proofs.Url.File
import MarkdownLinks.Proofs.Url.Percent
import MarkdownLinks.Proofs.Url.Target
import MarkdownLinks.Proofs.Url.Web
import MarkdownLinks.Proofs.Validation.Complete
import MarkdownLinks.Proofs.Validation.Exclusion
import MarkdownLinks.Proofs.Validation.Interleaving
import MarkdownLinks.Proofs.Validation.Network
import MarkdownLinks.Proofs.Validation.Relocation
import MarkdownLinks.Proofs.Validation.Report
import MarkdownLinks.Proofs.Validation.Run
import MarkdownLinks.Report.AsJson
import MarkdownLinks.Report.AsText
import MarkdownLinks.Report.Basic
import MarkdownLinks.Report.Format
import MarkdownLinks.Search
import MarkdownLinks.Settings.Basic
import MarkdownLinks.Settings.File
import MarkdownLinks.Settings.Reader
import MarkdownLinks.Slug
import MarkdownLinks.Text.Basic
import MarkdownLinks.Text.Blank
import MarkdownLinks.Text.Cased
import MarkdownLinks.Text.CharClass
import MarkdownLinks.Text.LineEnding
import MarkdownLinks.Text.Lowercase
import MarkdownLinks.Text.Number
import MarkdownLinks.Text.Set
import MarkdownLinks.Text.Utf8
import MarkdownLinks.Text.Word
import MarkdownLinks.Url.Basic
import MarkdownLinks.Url.Percent
import MarkdownLinks.Validation
