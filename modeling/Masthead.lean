import Masthead.Calendar.Date
import Masthead.Calendar.Format
import Masthead.Calendar.Zone
import Masthead.Command.Arguments
import Masthead.Command.Collection
import Masthead.Command.Fault
import Masthead.Command.Job
import Masthead.Command.Output
import Masthead.Command.Run
import Masthead.Config.Basic
import Masthead.Config.Check
import Masthead.Config.Record
import Masthead.Data.Decimal
import Masthead.Data.Json.Printer
import Masthead.Data.Json.Reader
import Masthead.Data.Shortest
import Masthead.Data.Toml.Quoted
import Masthead.Data.Toml.Reader
import Masthead.Data.Toml.Scalar
import Masthead.Data.Toml.Tree
import Masthead.Data.Value
import Masthead.Diff.Compaction
import Masthead.Diff.Script
import Masthead.Diff.Unified
import Masthead.Document
import Masthead.FileTree
import Masthead.Header.Bounds
import Masthead.Header.Engine
import Masthead.Header.Entry
import Masthead.Header.Field
import Masthead.Header.Line
import Masthead.Header.Narrative
import Masthead.Header.Refresh
import Masthead.Header.Section
import Masthead.Language.Builtin
import Masthead.Language.Table
import Masthead.Main
import Masthead.Path
import Masthead.Placeholder
import Masthead.Proofs.Command.Asked
import Masthead.Proofs.Command.Collection
import Masthead.Proofs.Command.DryRun
import Masthead.Proofs.Command.Processing
import Masthead.Proofs.Command.Report
import Masthead.Proofs.Command.Sequence
import Masthead.Proofs.Diff.Agreement
import Masthead.Proofs.Diff.Applied
import Masthead.Proofs.Diff.Compaction
import Masthead.Proofs.Diff.Hunks
import Masthead.Proofs.Diff.Middle
import Masthead.Proofs.Diff.Script
import Masthead.Proofs.Document.Access
import Masthead.Proofs.Document.Edits
import Masthead.Proofs.Document.PhysicalLines
import Masthead.Proofs.Document.RoundTrip
import Masthead.Proofs.FileTree
import Masthead.Proofs.FileTree.Alike
import Masthead.Proofs.Header.Access
import Masthead.Proofs.Header.Bounds
import Masthead.Proofs.Header.Changes
import Masthead.Proofs.Header.Closing
import Masthead.Proofs.Header.CommentOnly
import Masthead.Proofs.Header.CreationDate
import Masthead.Proofs.Header.DayLine
import Masthead.Proofs.Header.Enclosure
import Masthead.Proofs.Header.Entry
import Masthead.Proofs.Header.EntryText
import Masthead.Proofs.Header.Extent
import Masthead.Proofs.Header.Field
import Masthead.Proofs.Header.FirstDay
import Masthead.Proofs.Header.Growth
import Masthead.Proofs.Header.Increase
import Masthead.Proofs.Header.InsertedText
import Masthead.Proofs.Header.Insertion
import Masthead.Proofs.Header.Line
import Masthead.Proofs.Header.Listing
import Masthead.Proofs.Header.Merge
import Masthead.Proofs.Header.Numbering
import Masthead.Proofs.Header.Omission
import Masthead.Proofs.Header.Outcome
import Masthead.Proofs.Header.Persistence
import Masthead.Proofs.Header.Plainness
import Masthead.Proofs.Header.Recognition
import Masthead.Proofs.Header.Refresh
import Masthead.Proofs.Header.Rendering
import Masthead.Proofs.Header.Renewal
import Masthead.Proofs.Header.Repair
import Masthead.Proofs.Header.Run
import Masthead.Proofs.Header.Section
import Masthead.Proofs.Header.Settled
import Masthead.Proofs.Header.Signature
import Masthead.Proofs.Header.SignaturePattern
import Masthead.Proofs.Header.Silence
import Masthead.Proofs.Header.Splice
import Masthead.Proofs.Header.Stability
import Masthead.Proofs.Header.Standing
import Masthead.Proofs.Header.Upkeep
import Masthead.Proofs.Header.Written
import Masthead.Proofs.Path
import Masthead.Proofs.Placeholder
import Masthead.Proofs.Template.Fill
import Masthead.Proofs.Text.Affix
import Masthead.Proofs.Text.Lines
import Masthead.Proofs.Text.Lower
import Masthead.Proofs.Text.Numeral
import Masthead.Proofs.Text.Pieces
import Masthead.Proofs.Text.Split
import Masthead.Proofs.Text.Unbroken
import Masthead.Proofs.Variables
import Masthead.Proofs.Version
import Masthead.Proofs.Version.Format
import Masthead.Report
import Masthead.Style
import Masthead.Template.Builtin
import Masthead.Template.Set
import Masthead.Text.Basic
import Masthead.Text.Case
import Masthead.Text.Lines
import Masthead.Text.Numeral
import Masthead.Text.Pieces
import Masthead.Text.Range
import Masthead.Text.White
import Masthead.Text.Word
import Masthead.Variables
import Masthead.Version
