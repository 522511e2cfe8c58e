import AlertRegistry.Alert.Basic
import AlertRegistry.Alert.Document
import AlertRegistry.Alert.Record
import AlertRegistry.Alert.Row
import AlertRegistry.Alert.Tuple
import AlertRegistry.Config
import AlertRegistry.Database.Basic
import AlertRegistry.Database.Layout
import AlertRegistry.Database.Named
import AlertRegistry.Decimal.Binary
import AlertRegistry.Decimal.Extended
import AlertRegistry.Decimal.Nearest
import AlertRegistry.Decimal.Numeral
import AlertRegistry.Decimal.Shortest
import AlertRegistry.Decimal.Style
import AlertRegistry.Expression.Basic
import AlertRegistry.Expression.Record
import AlertRegistry.Expression.Row
import AlertRegistry.Expression.Tuple
import AlertRegistry.Extensions
import AlertRegistry.Files.Path
import AlertRegistry.Files.Resolution
import AlertRegistry.Files.Tree
import AlertRegistry.Files.Uri
import AlertRegistry.Filter.Basic
import AlertRegistry.Filter.Condition
import AlertRegistry.Filter.Strategy
import AlertRegistry.Inspect
import AlertRegistry.Json.Printer
import AlertRegistry.Json.Token
import AlertRegistry.Json.Tree
import AlertRegistry.Json.Value
import AlertRegistry.Logging.Basic
import AlertRegistry.Logging.Level
import AlertRegistry.Main
import AlertRegistry.Page
import AlertRegistry.Period.Basic
import AlertRegistry.Period.Designator
import AlertRegistry.Proofs.Alert.Document
import AlertRegistry.Proofs.Alert.History
import AlertRegistry.Proofs.Alert.Joined
import AlertRegistry.Proofs.Alert.Lawful
import AlertRegistry.Proofs.Alert.Quantity
import AlertRegistry.Proofs.Alert.Renewal
import AlertRegistry.Proofs.Alert.Row
import AlertRegistry.Proofs.Alert.Stored
import AlertRegistry.Proofs.Alert.Threshold
import AlertRegistry.Proofs.Cell
import AlertRegistry.Proofs.Condition
import AlertRegistry.Proofs.Config
import AlertRegistry.Proofs.Connections
import AlertRegistry.Proofs.Containment
import AlertRegistry.Proofs.Database
import AlertRegistry.Proofs.Decimal.Finite
import AlertRegistry.Proofs.Decimal.Literal
import AlertRegistry.Proofs.Decimal.Numeral
import AlertRegistry.Proofs.Decimal.Shortest
import AlertRegistry.Proofs.Decimal.Style
import AlertRegistry.Proofs.Double.Arithmetic
import AlertRegistry.Proofs.Double.Bits
import AlertRegistry.Proofs.Double.Integral
import AlertRegistry.Proofs.Double.Rounding
import AlertRegistry.Proofs.Double.Value
import AlertRegistry.Proofs.Expression.Lawful
import AlertRegistry.Proofs.Expression.Stored
import AlertRegistry.Proofs.Extensions
import AlertRegistry.Proofs.Filter
import AlertRegistry.Proofs.Json.Number
import AlertRegistry.Proofs.Json.Token
import AlertRegistry.Proofs.Json.Tree
import AlertRegistry.Proofs.Json.Value
import AlertRegistry.Proofs.Json.Written
import AlertRegistry.Proofs.Keyed
import AlertRegistry.Proofs.Logging
import AlertRegistry.Proofs.Migration
import AlertRegistry.Proofs.Mirror
import AlertRegistry.Proofs.Page
import AlertRegistry.Proofs.Period
import AlertRegistry.Proofs.Period.Canonical
import AlertRegistry.Proofs.Period.Grammar
import AlertRegistry.Proofs.Reading
import AlertRegistry.Proofs.Record
import AlertRegistry.Proofs.Repository.Audit
import AlertRegistry.Proofs.Repository.Contention
import AlertRegistry.Proofs.Repository.Errands
import AlertRegistry.Proofs.Repository.Etag
import AlertRegistry.Proofs.Repository.Foreseen
import AlertRegistry.Proofs.Repository.Frame
import AlertRegistry.Proofs.Repository.GenericSearch
import AlertRegistry.Proofs.Repository.Guard
import AlertRegistry.Proofs.Repository.Identity
import AlertRegistry.Proofs.Repository.Interleaving
import AlertRegistry.Proofs.Repository.Ledger
import AlertRegistry.Proofs.Repository.Lifecycle
import AlertRegistry.Proofs.Repository.Lockstep
import AlertRegistry.Proofs.Repository.Malformed
import AlertRegistry.Proofs.Repository.Operations
import AlertRegistry.Proofs.Repository.Paging
import AlertRegistry.Proofs.Repository.Rollback
import AlertRegistry.Proofs.Repository.Run
import AlertRegistry.Proofs.Repository.Searching
import AlertRegistry.Proofs.Repository.Separation
import AlertRegistry.Proofs.Repository.Stamping
import AlertRegistry.Proofs.Repository.Steps
import AlertRegistry.Proofs.Repository.Walk
import AlertRegistry.Proofs.Saving
import AlertRegistry.Proofs.Schema
import AlertRegistry.Proofs.Selection
import AlertRegistry.Proofs.SideRecord
import AlertRegistry.Proofs.SideRecord.Canonical
import AlertRegistry.Proofs.SideRecord.Coercion
import AlertRegistry.Proofs.SideRecord.Literal
import AlertRegistry.Proofs.Stamped
import AlertRegistry.Proofs.Store
import AlertRegistry.Proofs.Table
import AlertRegistry.Proofs.Text.Digits
import AlertRegistry.Proofs.Text.Hex
import AlertRegistry.Proofs.Text.Integer
import AlertRegistry.Proofs.Text.Wildcard
import AlertRegistry.Proofs.Text.Words
import AlertRegistry.Proofs.Uuid
import AlertRegistry.Proofs.Versioned
import AlertRegistry.Query
import AlertRegistry.Record
import AlertRegistry.Repository.Basic
import AlertRegistry.Repository.Error
import AlertRegistry.Repository.Saving
import AlertRegistry.RowError
import AlertRegistry.Schema.Catalog
import AlertRegistry.Schema.File
import AlertRegistry.Schema.Migration
import AlertRegistry.Search.Basic
import AlertRegistry.Search.Selection
import AlertRegistry.Search.Source
import AlertRegistry.SideRecord
import AlertRegistry.Store.Basic
import AlertRegistry.Store.Error
import AlertRegistry.Store.Location
import AlertRegistry.Store.Opening
import AlertRegistry.Store.Placement
import AlertRegistry.Store.Reading
import AlertRegistry.Store.Shared
import AlertRegistry.Table.Basic
import AlertRegistry.Table.Cell
import AlertRegistry.Text.Blank
import AlertRegistry.Text.Bytes
import AlertRegistry.Text.Digits
import AlertRegistry.Text.Hex
import AlertRegistry.Text.Letters
import AlertRegistry.Text.Pieces
import AlertRegistry.Text.Points
import AlertRegistry.Text.Printable
import AlertRegistry.Text.Quoted
import AlertRegistry.Text.Run
import AlertRegistry.Text.Wildcard
import AlertRegistry.Text.Words
import AlertRegistry.Toml.Document
import AlertRegistry.Toml.Moment
import AlertRegistry.Toml.Node
import AlertRegistry.Toml.Number
import AlertRegistry.Toml.Text
import AlertRegistry.Toml.Value
import AlertRegistry.Uuid
import AlertRegistry.Version
