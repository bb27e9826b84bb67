import RecordHeader.CommandLine
import RecordHeader.Definition
import RecordHeader.Failure
import RecordHeader.FileSystem.Basic
import RecordHeader.FileSystem.Edit
import RecordHeader.FileSystem.Replace
import RecordHeader.FileSystem.Walk
import RecordHeader.Header
import RecordHeader.Job
import RecordHeader.Log
import RecordHeader.Main
import RecordHeader.Name
import RecordHeader.Path
import RecordHeader.Program
import RecordHeader.Proofs.Concatenation
import RecordHeader.Proofs.Effects
import RecordHeader.Proofs.Faithful
import RecordHeader.Proofs.Grammar
import RecordHeader.Proofs.Jobs
import RecordHeader.Proofs.Layout
import RecordHeader.Proofs.Parsing
import RecordHeader.Proofs.Replacing
import RecordHeader.Run
import RecordHeader.Schema
import RecordHeader.Settings
import RecordHeader.Sink
import RecordHeader.Storage
import RecordHeader.Text.Bytes
import RecordHeader.Text.Escape
import RecordHeader.Text.Lines
import RecordHeader.Text.WhiteSpace
import RecordHeader.TypeTable
import RecordHeader.Validity
import RecordHeader.Proofs.Agreement
import RecordHeader.Proofs.Validation
import RecordHeader.Proofs.Arguments
import RecordHeader.Proofs.Idempotence
import RecordHeader.Proofs.ReadBack
import RecordHeader.Proofs.Delivery
import RecordHeader.Proofs.Culprits
import RecordHeader.Proofs.ExitStatus
import RecordHeader.Proofs.Printing
import RecordHeader.Proofs.UsableNames
import RecordHeader.Proofs.Sinks
import RecordHeader.Proofs.Storing
import RecordHeader.Proofs.Reports
import RecordHeader.Proofs.Clashes
import RecordHeader.Proofs.KeywordTypes
import RecordHeader.Proofs.TypeTables
import RecordHeader.Proofs.Framing
import RecordHeader.Proofs.Banner
import RecordHeader.Proofs.Guards
import RecordHeader.Proofs.Blocks
