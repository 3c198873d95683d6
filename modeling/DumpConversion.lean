import DumpConversion.Bytes.Sha256
import DumpConversion.Bytes.SingleByte
import DumpConversion.Bytes.Utf8
import DumpConversion.CommandLine.Options
import DumpConversion.CommandLine.Request
import DumpConversion.CommandLine.Run
import DumpConversion.CommandLine.Verbosity
import DumpConversion.CommandLine.Words
import DumpConversion.Conversion.Dumping
import DumpConversion.Conversion.Failure
import DumpConversion.Conversion.Inspection
import DumpConversion.Conversion.Loading
import DumpConversion.Conversion.Previous
import DumpConversion.Conversion.Report
import DumpConversion.Conversion.Sanitizing
import DumpConversion.Conversion.Stages
import DumpConversion.Database.Engine
import DumpConversion.Database.Execution
import DumpConversion.Database.PlainEngine
import DumpConversion.Database.Query
import DumpConversion.Database.Schema
import DumpConversion.Database.Statement
import DumpConversion.Disk.Content
import DumpConversion.Disk.Store
import DumpConversion.Dump.Charset
import DumpConversion.Dump.Clause
import DumpConversion.Dump.Line
import DumpConversion.Dump.Retained
import DumpConversion.Dump.Scan
import DumpConversion.Machine.Basic
import DumpConversion.Machine.Command
import DumpConversion.Machine.Platform
import DumpConversion.Machine.Program
import DumpConversion.Output.Json
import DumpConversion.Output.Yaml
import DumpConversion.Path
import DumpConversion.Proofs.Bytes.Lossy
import DumpConversion.Proofs.Bytes.RoundTrip
import DumpConversion.Proofs.Bytes.SingleByte
import DumpConversion.Proofs.Bytes.Streaming
import DumpConversion.Proofs.Bytes.WellFormed
import DumpConversion.Proofs.CommandLine.Discipline
import DumpConversion.Proofs.CommandLine.OutputFlags
import DumpConversion.Proofs.CommandLine.Password
import DumpConversion.Proofs.CommandLine.Secrecy
import DumpConversion.Proofs.Conversion.AtomicDump
import DumpConversion.Proofs.Conversion.Exits
import DumpConversion.Proofs.Conversion.Findings
import DumpConversion.Proofs.Conversion.HandOver
import DumpConversion.Proofs.Conversion.InProcess
import DumpConversion.Proofs.Conversion.Inspection
import DumpConversion.Proofs.Conversion.NothingLost
import DumpConversion.Proofs.Conversion.Programs
import DumpConversion.Proofs.Conversion.ReadOnly
import DumpConversion.Proofs.Conversion.Recovery
import DumpConversion.Proofs.Conversion.Rewriting
import DumpConversion.Proofs.Conversion.Secrecy
import DumpConversion.Proofs.Conversion.SetAside
import DumpConversion.Proofs.Conversion.Survival
import DumpConversion.Proofs.Conversion.Transaction
import DumpConversion.Proofs.Conversion.TwoCells
import DumpConversion.Proofs.Database.Additions
import DumpConversion.Proofs.Database.Execution
import DumpConversion.Proofs.Database.Lexing
import DumpConversion.Proofs.Database.Queries
import DumpConversion.Proofs.Database.Reading
import DumpConversion.Proofs.Dialect.Definitions
import DumpConversion.Proofs.Dialect.Insertions
import DumpConversion.Proofs.Dialect.Listing
import DumpConversion.Proofs.Dialect.Loading
import DumpConversion.Proofs.Dialect.Schema
import DumpConversion.Proofs.Dialect.Translation
import DumpConversion.Proofs.Disk.Aside
import DumpConversion.Proofs.Disk.Components
import DumpConversion.Proofs.Disk.Places
import DumpConversion.Proofs.Dump.Accounting
import DumpConversion.Proofs.Dump.ClauseCuts
import DumpConversion.Proofs.Dump.ClauseFree
import DumpConversion.Proofs.Dump.ClausePhrase
import DumpConversion.Proofs.Dump.ClauseRules
import DumpConversion.Proofs.Dump.ClauseShape
import DumpConversion.Proofs.Dump.Concatenation
import DumpConversion.Proofs.Dump.FinalForm
import DumpConversion.Proofs.Dump.LiteralChanges
import DumpConversion.Proofs.Dump.Lookahead
import DumpConversion.Proofs.Dump.NormalForm
import DumpConversion.Proofs.Dump.Punctuation
import DumpConversion.Proofs.Dump.Quotes
import DumpConversion.Proofs.Dump.Refusal
import DumpConversion.Proofs.Dump.RetainedHistory
import DumpConversion.Proofs.Dump.SecondScan
import DumpConversion.Proofs.Dump.StringLiterals
import DumpConversion.Proofs.Dump.Unchanged
import DumpConversion.Proofs.Machine.Outcomes
import DumpConversion.Proofs.Machine.Starts
import DumpConversion.Proofs.Machine.TwoRuns
import DumpConversion.Proofs.Settings.Fields
import DumpConversion.Proofs.Settings.Layering
import DumpConversion.Proofs.Settings.Password
import DumpConversion.Proofs.Settings.Port
import DumpConversion.Proofs.Settings.RoundTrip
import DumpConversion.Proofs.Text.Joining
import DumpConversion.Proofs.Text.Literals
import DumpConversion.Proofs.Text.Numerals
import DumpConversion.Proofs.Text.Positions
import DumpConversion.Proofs.Text.Trimming
import DumpConversion.Proofs.Yaml.Digits
import DumpConversion.Proofs.Yaml.Documents
import DumpConversion.Proofs.Yaml.Lines
import DumpConversion.Proofs.Yaml.Scalars
import DumpConversion.Settings.Basic
import DumpConversion.Settings.Document
import DumpConversion.Settings.Layers
import DumpConversion.Settings.Layout
import DumpConversion.Text.Blank
import DumpConversion.Text.Lines
import DumpConversion.Text.Numeral
import DumpConversion.Text.Occurrence
import DumpConversion.Text.WordChar
import DumpConversion.Yaml.Node
import DumpConversion.Yaml.Token
