import DataVault.Artifact.Basic
import DataVault.Artifact.Json
import DataVault.Artifact.Written
import DataVault.CommandLine.Args
import DataVault.CommandLine.Config
import DataVault.CommandLine.Program
import DataVault.Compile.Receipt
import DataVault.Compile.Run
import DataVault.Compile.RunConfig
import DataVault.Csv.Reader
import DataVault.Digest.KeyEncoding
import DataVault.Digest.Sha256
import DataVault.Document.Node
import DataVault.Document.Record
import DataVault.Document.Shape
import DataVault.Entity.Canonical
import DataVault.Entity.Error
import DataVault.Entity.Kind
import DataVault.Entity.Naming
import DataVault.Entity.Rejection
import DataVault.Entity.Spec
import DataVault.Failure
import DataVault.Files.Changes
import DataVault.Files.Path
import DataVault.Files.Tree
import DataVault.Generate.Basic
import DataVault.Generate.Dispatch
import DataVault.Generate.Hub
import DataVault.Generate.Link
import DataVault.Generate.Satellite
import DataVault.Generate.Settings
import DataVault.Generate.SettingsDocument
import DataVault.Guard.Claims
import DataVault.Guard.Result
import DataVault.Guard.Suite
import DataVault.History.Table
import DataVault.Json.Number
import DataVault.Json.Reader
import DataVault.Json.Value
import DataVault.Logging.Settings
import DataVault.Main
import DataVault.Metadata.Ingest
import DataVault.Metadata.Row
import DataVault.Metadata.Source
import DataVault.Output.Sink
import DataVault.Proofs.Artifact.Blocks
import DataVault.Proofs.CommandLine.Delimiters
import DataVault.Proofs.CommandLine.Pools
import DataVault.Proofs.Compile.Accounting
import DataVault.Proofs.Compile.ArtifactNames
import DataVault.Proofs.Compile.Canonical
import DataVault.Proofs.Compile.Claiming
import DataVault.Proofs.Compile.Extension
import DataVault.Proofs.Compile.Ownership
import DataVault.Proofs.Compile.Planning
import DataVault.Proofs.Compile.Receipts
import DataVault.Proofs.Compile.RecordedInputs
import DataVault.Proofs.Compile.Relations
import DataVault.Proofs.Compile.Survivors
import DataVault.Proofs.Digest.Decoding
import DataVault.Proofs.Digest.Encoding
import DataVault.Proofs.Digest.Separator
import DataVault.Proofs.Entity.Naming
import DataVault.Proofs.Entity.Reading
import DataVault.Proofs.Entity.Refusal
import DataVault.Proofs.Files.Names
import DataVault.Proofs.Files.Paths
import DataVault.Proofs.Files.Trees
import DataVault.Proofs.Generate.Acceptance
import DataVault.Proofs.Generate.ColumnNames
import DataVault.Proofs.Generate.Generated
import DataVault.Proofs.Generate.HeaderColumns
import DataVault.Proofs.Generate.HubRows
import DataVault.Proofs.Generate.KeyItems
import DataVault.Proofs.Generate.Placeholders
import DataVault.Proofs.Generate.Recovery
import DataVault.Proofs.Generate.SatelliteColumns
import DataVault.Proofs.Generate.SatelliteMerge
import DataVault.Proofs.Generate.SatelliteRows
import DataVault.Proofs.Generate.SatelliteSource
import DataVault.Proofs.Generate.Scoping
import DataVault.Proofs.Generate.WrittenHeaders
import DataVault.Proofs.History.AsOf
import DataVault.Proofs.History.Failure
import DataVault.Proofs.History.Merging
import DataVault.Proofs.History.Order
import DataVault.Proofs.History.Places
import DataVault.Proofs.History.Redelivery
import DataVault.Proofs.History.Staging
import DataVault.Proofs.History.Succession
import DataVault.Proofs.Json.Reading
import DataVault.Proofs.Json.WrittenForms
import DataVault.Proofs.Lists
import DataVault.Proofs.Metadata.Ingestion
import DataVault.Proofs.Metadata.Ledger
import DataVault.Proofs.Metadata.ListCells
import DataVault.Proofs.Metadata.RowNumbers
import DataVault.Proofs.Output.Effect
import DataVault.Proofs.Output.FileSink
import DataVault.Proofs.Output.Interruption
import DataVault.Proofs.Output.Manifest
import DataVault.Proofs.Output.Pruning
import DataVault.Proofs.Output.Steps
import DataVault.Proofs.Output.Tracking
import DataVault.Proofs.Results
import DataVault.Proofs.Sql.ExpressionText
import DataVault.Proofs.Sql.Lines
import DataVault.Proofs.Sql.Literals
import DataVault.Proofs.Sql.Names
import DataVault.Proofs.Sql.Nesting
import DataVault.Proofs.Sql.Placeholders
import DataVault.Proofs.Sql.Reading
import DataVault.Proofs.Sql.References
import DataVault.Proofs.Sql.SelectionText
import DataVault.Proofs.Text.Cutting
import DataVault.Proofs.Warehouse.Columns
import DataVault.Proofs.Warehouse.Digest
import DataVault.Proofs.Warehouse.Expression
import DataVault.Proofs.Warehouse.Legibility
import DataVault.Proofs.Warehouse.Relation
import DataVault.Proofs.Warehouse.Selection
import DataVault.Sql.Dialect
import DataVault.Sql.Expr
import DataVault.Sql.Ident
import DataVault.Sql.Literal
import DataVault.Sql.Merge
import DataVault.Sql.Query
import DataVault.Sql.TableRef
import DataVault.Text.Alphanumeric
import DataVault.Text.Blank
import DataVault.Text.Control
import DataVault.Text.Hex
import DataVault.Text.Hidden
import DataVault.Text.Numeral
import DataVault.Text.Occurs
import DataVault.Text.Quoted
import DataVault.Text.Range
import DataVault.Text.Timestamp
import DataVault.Toml.Reader
import DataVault.Toml.Scalar
import DataVault.Toml.Table
import DataVault.Yaml.Cursor
import DataVault.Yaml.Expand
import DataVault.Yaml.Reader
import DataVault.Yaml.Resolve
import DataVault.Yaml.Scalar
import DataVault.Yaml.Tag
import DataVault.Yaml.Token
import DataVault.Yaml.Tree
