import TestRoster.Main
import TestRoster.Proofs.Discovery.Shape
import TestRoster.Proofs.Discovery.Outcome
import TestRoster.Proofs.Discovery.Entry
import TestRoster.Proofs.Discovery.Strictness
import TestRoster.Proofs.Discovery.Containment
import TestRoster.Proofs.Discovery.Verbosity
import TestRoster.Proofs.Discovery.Origin
import TestRoster.Proofs.Discovery.Nesting
import TestRoster.Proofs.Go.Lexical
import TestRoster.Proofs.Go.Reading
import TestRoster.Proofs.Go.Frame
import TestRoster.Proofs.Go.Conversion
import TestRoster.Proofs.Go.Block
import TestRoster.Proofs.Discovery.Contribution
import TestRoster.Proofs.Discovery.Relocation
import TestRoster.Proofs.Discovery.WellFormed
import TestRoster.Proofs.Go.Legible
import TestRoster.Proofs.Go.Currency
import TestRoster.Proofs.Discovery.Depth
import TestRoster.Proofs.Discovery.Copy
import TestRoster.Proofs.Discovery.Row
import TestRoster.Proofs.Go.Comment
import TestRoster.Proofs.Go.FirstError
import TestRoster.Proofs.Go.Order
import TestRoster.Proofs.Run.Filter
import TestRoster.Proofs.Run.Spelling
import TestRoster.Proofs.Run.Package
import TestRoster.Proofs.Run.Shell
import TestRoster.Proofs.Files.Path
import TestRoster.Proofs.Files.Place
import TestRoster.Proofs.Discovery.Walk
import TestRoster.Proofs.Discovery.Isolation
import TestRoster.Proofs.Files.Change
import TestRoster.Proofs.Files.Keep
import TestRoster.Proofs.Datum.Equality
import TestRoster.Proofs.Datum.Quoted
import TestRoster.Proofs.Datum.Json
import TestRoster.Proofs.Run.Lines
import TestRoster.Proofs.Benchmark.Store
import TestRoster.Proofs.Settings.Page
import TestRoster.Proofs.Settings.Bundled
import TestRoster.Proofs.Settings.Meaning
import TestRoster.Proofs.Run.Act
import TestRoster.Proofs.Run.Started
import TestRoster.Proofs.Run.Writes
import TestRoster.Proofs.Run.Kept
import TestRoster.Proofs.Datum.Traversal
import TestRoster.Proofs.Run.Recorded
import TestRoster.Proofs.Benchmark.Recording
import TestRoster.Proofs.CommandLine.Commands
import TestRoster.Proofs.CommandLine.Turn
import TestRoster.Proofs.CommandLine.History
import TestRoster.Proofs.CommandLine.Results
import TestRoster.Proofs.Go.Quoted
import TestRoster.Proofs.Text.Portion
import TestRoster.Proofs.Datum.Extent
import TestRoster.Proofs.Go.Pairing
import TestRoster.Proofs.Run.Appended
import TestRoster.Proofs.CommandLine.Listing
import TestRoster.Proofs.Benchmark.Filing
import TestRoster.Proofs.Benchmark.Sequence
import TestRoster.Proofs.Number.Rounding
import TestRoster.Proofs.Number.Shortest
import TestRoster.Proofs.Datum.Number
import TestRoster.Proofs.Datum.Range
import TestRoster.Proofs.Benchmark.Atomic
import TestRoster.Proofs.Time.Calendar
import TestRoster.Proofs.Time.Stamp
import TestRoster.Proofs.Benchmark.Chronology
import TestRoster.Proofs.Benchmark.Line
import TestRoster.Proofs.Benchmark.Metric
import TestRoster.Proofs.Benchmark.Output
import TestRoster.Proofs.Benchmark.Table
import TestRoster.Proofs.Discovery.Warning
import TestRoster.Proofs.Roster.Tree
import TestRoster.Proofs.Roster.Document
import TestRoster.Proofs.Roster.Rejection
import TestRoster.Proofs.Benchmark.Printed
import TestRoster.Proofs.Benchmark.Frames
import TestRoster.Proofs.Benchmark.Bundled
import TestRoster.Proofs.Benchmark.Recovered
import TestRoster.Proofs.Benchmark.Stacked
import TestRoster.Proofs.Benchmark.Summary
