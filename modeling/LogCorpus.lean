import LogCorpus.Command.Arguments
import LogCorpus.Command.Display
import LogCorpus.Command.Execution
import LogCorpus.Command.Invocation
import LogCorpus.Command.Option
import LogCorpus.Configuration
import LogCorpus.Conversion.Batch
import LogCorpus.Conversion.Dataset
import LogCorpus.Conversion.Delivery
import LogCorpus.Conversion.Run
import LogCorpus.Corpus.Basic
import LogCorpus.Corpus.Excision
import LogCorpus.Decimal.Shortest
import LogCorpus.Decimal.Text
import LogCorpus.Distinct
import LogCorpus.Fault
import LogCorpus.Graph.Arena
import LogCorpus.Graph.Basic
import LogCorpus.Graph.Dot
import LogCorpus.Graph.Json
import LogCorpus.Graph.Kind
import LogCorpus.Json.Basic
import LogCorpus.Json.Reader
import LogCorpus.Json.Writer
import LogCorpus.Main
import LogCorpus.Occurrence.Basic
import LogCorpus.Occurrence.Detection
import LogCorpus.Occurrence.Index
import LogCorpus.Occurrence.Statistics
import LogCorpus.Partition
import LogCorpus.Proofs.Command.Excision
import LogCorpus.Proofs.Conversion.Batch
import LogCorpus.Proofs.Conversion.Converter
import LogCorpus.Proofs.Conversion.Counts
import LogCorpus.Proofs.Conversion.Dataset
import LogCorpus.Proofs.Conversion.Delivery
import LogCorpus.Proofs.Conversion.Faults
import LogCorpus.Proofs.Conversion.Framing
import LogCorpus.Proofs.Conversion.Leaks
import LogCorpus.Proofs.Conversion.Policy
import LogCorpus.Proofs.Conversion.Run
import LogCorpus.Proofs.Corpus.Confinement
import LogCorpus.Proofs.Corpus.Detection
import LogCorpus.Proofs.Corpus.Excision
import LogCorpus.Proofs.Corpus.Grouping
import LogCorpus.Proofs.Corpus.Listing
import LogCorpus.Proofs.Corpus.Prepared
import LogCorpus.Proofs.Corpus.Schedule
import LogCorpus.Proofs.Corpus.Siblings
import LogCorpus.Proofs.Corpus.Storage
import LogCorpus.Proofs.Corpus.Walk
import LogCorpus.Proofs.Corpus.Worker
import LogCorpus.Proofs.Distinct
import LogCorpus.Proofs.Graph.Arena
import LogCorpus.Proofs.Graph.Building
import LogCorpus.Proofs.Graph.Dot
import LogCorpus.Proofs.Graph.Editing
import LogCorpus.Proofs.Graph.Kind
import LogCorpus.Proofs.Graph.Rebuilding
import LogCorpus.Proofs.Graph.Renaming
import LogCorpus.Proofs.Json.RoundTrip
import LogCorpus.Proofs.Json.Scalar
import LogCorpus.Proofs.Occurrence.Calls
import LogCorpus.Proofs.Occurrence.Detection
import LogCorpus.Proofs.Occurrence.Index
import LogCorpus.Proofs.Occurrence.Numbering
import LogCorpus.Proofs.Occurrence.Siblings
import LogCorpus.Proofs.Occurrence.Statistics
import LogCorpus.Proofs.Partition
import LogCorpus.Proofs.Partition.Boundaries
import LogCorpus.Proofs.Partition.Conservation
import LogCorpus.Proofs.Partition.Images
import LogCorpus.Proofs.Partition.Rebalancing
import LogCorpus.Proofs.Partition.Selection
import LogCorpus.Proofs.Random.Shuffle
import LogCorpus.Proofs.Record.Canonical
import LogCorpus.Proofs.Record.Reading
import LogCorpus.Proofs.Record.RoundTrip
import LogCorpus.Proofs.Record.Spelling
import LogCorpus.Proofs.Record.Truncation
import LogCorpus.Proofs.Report
import LogCorpus.Proofs.Stateful
import LogCorpus.Proofs.Statement.Commutation
import LogCorpus.Proofs.Statement.Contraction
import LogCorpus.Proofs.Statement.Interference
import LogCorpus.Proofs.Statement.Location
import LogCorpus.Proofs.Statement.Remainder
import LogCorpus.Proofs.Statement.Renaming
import LogCorpus.Proofs.Statement.Sentinel
import LogCorpus.Proofs.Statement.Span
import LogCorpus.Proofs.Statement.Surgery
import LogCorpus.Proofs.Storage.Confinement
import LogCorpus.Proofs.Storage.Disk
import LogCorpus.Proofs.Storage.Gzip
import LogCorpus.Proofs.Storage.Joining
import LogCorpus.Proofs.Storage.Path
import LogCorpus.Proofs.Storage.Tree
import LogCorpus.Proofs.Storage.Visits
import LogCorpus.Proofs.Text.Bytes
import LogCorpus.Proofs.Text.Segments
import LogCorpus.Proofs.Text.Tokens
import LogCorpus.Proofs.Training.Backbone
import LogCorpus.Proofs.Training.Description
import LogCorpus.Proofs.Training.Lines
import LogCorpus.Proofs.Training.Projection
import LogCorpus.Proofs.Training.RoundTrip
import LogCorpus.Proofs.Training.Traversal
import LogCorpus.Random.Generator
import LogCorpus.Random.Shuffle
import LogCorpus.Record.Basic
import LogCorpus.Record.Decoder
import LogCorpus.Record.Payload
import LogCorpus.Record.Varint
import LogCorpus.Report
import LogCorpus.Settings.Basic
import LogCorpus.Severity
import LogCorpus.Statement.Excision
import LogCorpus.Statement.LevelAccess
import LogCorpus.Statement.Span
import LogCorpus.Statement.Surgery
import LogCorpus.Storage.Disk
import LogCorpus.Storage.Gzip
import LogCorpus.Storage.OnDisk
import LogCorpus.Storage.Path
import LogCorpus.Storage.Tree
import LogCorpus.Text.Bytes
import LogCorpus.Text.Characters
import LogCorpus.Text.Segments
import LogCorpus.Text.Tokens
import LogCorpus.Toml.Basic
import LogCorpus.Toml.Moment
import LogCorpus.Toml.Reader
import LogCorpus.Toml.Scalar
import LogCorpus.Toml.Text
import LogCorpus.Training.Example
import LogCorpus.Training.Projection
import LogCorpus.Training.Traversal
