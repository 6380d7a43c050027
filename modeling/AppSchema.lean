import AppSchema.Error.Shelf
import AppSchema.Json.Printer
import AppSchema.Proofs.Formula.Parser
import AppSchema.Proofs.Script.Sealed
import AppSchema.Proofs.Storage.Association
import AppSchema.Proofs.Strict
import AppSchema.Proofs.View.Cycle
import AppSchema.Script
import AppSchema.Proofs.Tagged
import AppSchema.Proofs.Catalog
import AppSchema.Proofs.Storage.Connection
import AppSchema.Proofs.Storage.Reference
import AppSchema.Proofs.Application.Numbered
import AppSchema.Proofs.Accounting
import AppSchema.Proofs.Application.Renumbered
import AppSchema.Proofs.Storage.Storable
import AppSchema.Proofs.Storage.Renumbered
import AppSchema.Proofs.Formula.Renumbered
import AppSchema.Proofs.Permuted
import AppSchema.Proofs.Names
import AppSchema.Proofs.View.Capture
import AppSchema.Proofs.Script.Created
import AppSchema.Proofs.Script.Described
import AppSchema.Proofs.Metadata
import AppSchema.Proofs.Formula.Printer
import AppSchema.Proofs.Formula.Written
import AppSchema.Proofs.Formula.Comparison
import AppSchema.Proofs.Application.Default
import AppSchema.Proofs.View.Tables
import AppSchema.Proofs.Formula.Canonical
import AppSchema.Proofs.Application.Lookup
import AppSchema.Proofs.Storage.Keyed
import AppSchema.Proofs.Storage.Ledger
import AppSchema.Proofs.Storage.Positional
import AppSchema.Proofs.Bounds
import AppSchema.Proofs.Application.Repeated
import AppSchema.Proofs.Sql.Delimited
import AppSchema.Proofs.Error.Sharing
import AppSchema.Proofs.Statement.Insert
import AppSchema.Proofs.Statement.Literal
import AppSchema.Proofs.View.Arranged
