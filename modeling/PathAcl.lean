import PathAcl.Action
import PathAcl.Database
import PathAcl.Database.Dialogue
import PathAcl.Database.Operations
import PathAcl.Database.Row
import PathAcl.Database.Sql
import PathAcl.Engine
import PathAcl.Engine.Effective
import PathAcl.Engine.Lifecycle
import PathAcl.Engine.Listing
import PathAcl.Engine.Requests
import PathAcl.Engine.Rows
import PathAcl.Engine.Startup
import PathAcl.Engine.Subtree
import PathAcl.KeepLast
import PathAcl.ListedStorage
import PathAcl.Mask
import PathAcl.Memory
import PathAcl.Number.Binary64
import PathAcl.Number.Numeral
import PathAcl.Number.Shortest
import PathAcl.Order
import PathAcl.Path
import PathAcl.PathRef
import PathAcl.Permission
import PathAcl.Prolongation
import PathAcl.Proofs.Database.Arguments
import PathAcl.Proofs.Database.Blame
import PathAcl.Proofs.Database.Columns
import PathAcl.Proofs.Database.Connection
import PathAcl.Proofs.Database.Discipline
import PathAcl.Proofs.Database.Refusals
import PathAcl.Proofs.Database.Transactions
import PathAcl.Proofs.Database.Transcripts
import PathAcl.Proofs.Database.Writes
import PathAcl.Proofs.Engine.Acceptable
import PathAcl.Proofs.Engine.Accepted
import PathAcl.Proofs.Engine.Addresses
import PathAcl.Proofs.Engine.BatchResolution
import PathAcl.Proofs.Engine.Blame
import PathAcl.Proofs.Engine.Calls
import PathAcl.Proofs.Engine.Commutation
import PathAcl.Proofs.Engine.Containment
import PathAcl.Proofs.Engine.Effects
import PathAcl.Proofs.Engine.Failures
import PathAcl.Proofs.Engine.Inheritance
import PathAcl.Proofs.Engine.Instead
import PathAcl.Proofs.Engine.Interleaving
import PathAcl.Proofs.Engine.Lifecycle
import PathAcl.Proofs.Engine.Listings
import PathAcl.Proofs.Engine.Moves
import PathAcl.Proofs.Engine.Overlay
import PathAcl.Proofs.Engine.Prolongations
import PathAcl.Proofs.Engine.Questions
import PathAcl.Proofs.Engine.Resolution
import PathAcl.Proofs.Engine.Revocation
import PathAcl.Proofs.Engine.Sessions
import PathAcl.Proofs.Engine.Singly
import PathAcl.Proofs.Engine.Walks
import PathAcl.Proofs.Index.Agreement
import PathAcl.Proofs.Index.Calls
import PathAcl.Proofs.Index.Registration
import PathAcl.Proofs.Items
import PathAcl.Proofs.KeepLast
import PathAcl.Proofs.Memory.Acceptable
import PathAcl.Proofs.Memory.Batches
import PathAcl.Proofs.Memory.Calls
import PathAcl.Proofs.Memory.ListingOrder
import PathAcl.Proofs.Memory.Occupancy
import PathAcl.Proofs.Memory.Points
import PathAcl.Proofs.Memory.Prolongations
import PathAcl.Proofs.Memory.Refusals
import PathAcl.Proofs.Memory.Repeats
import PathAcl.Proofs.Memory.Shown
import PathAcl.Proofs.Memory.Subtrees
import PathAcl.Proofs.Memory.Table
import PathAcl.Proofs.Path.Ancestors
import PathAcl.Proofs.Path.NormalForm
import PathAcl.Proofs.Path.Order
import PathAcl.Proofs.Path.Segments
import PathAcl.Proofs.Path.Transplant
import PathAcl.Proofs.Resolution.Inheritance
import PathAcl.Proofs.Resolution.Reach
import PathAcl.Proofs.Settings.Fields
import PathAcl.Proofs.Settings.Layers
import PathAcl.Proofs.Settings.Names
import PathAcl.Proofs.Settings.Reader
import PathAcl.Proofs.Settings.Sources
import PathAcl.Proofs.Store.Checks
import PathAcl.Proofs.Store.Refusals
import PathAcl.Proofs.Time.Calendar
import PathAcl.Proofs.Time.Instant
import PathAcl.Proofs.Time.Rfc3339
import PathAcl.Proofs.Tree.Counts
import PathAcl.Proofs.Tree.Grants
import PathAcl.Proofs.Tree.Order
import PathAcl.Proofs.Tree.Relocation
import PathAcl.Proofs.Tree.Rows
import PathAcl.Proofs.Tree.Shape
import PathAcl.Proofs.Tree.Subtree
import PathAcl.Proofs.Tree.Table
import PathAcl.Proofs.Wire.Faithful
import PathAcl.Proofs.Wire.Layout
import PathAcl.Proofs.Wire.Shapes
import PathAcl.Report.Event
import PathAcl.Report.Filter
import PathAcl.Report.Metric
import PathAcl.Request
import PathAcl.Request.Check
import PathAcl.Request.Error
import PathAcl.Settings
import PathAcl.Settings.Document
import PathAcl.Settings.Library
import PathAcl.Settings.Load
import PathAcl.Settings.Name
import PathAcl.Settings.Reader
import PathAcl.Settings.Scalar
import PathAcl.Settings.Tree
import PathAcl.Sid
import PathAcl.SortedMap
import PathAcl.Storage
import PathAcl.StorageIndex
import PathAcl.Store
import PathAcl.Store.Error
import PathAcl.Text.Alphanumeric
import PathAcl.Text.Blank
import PathAcl.Text.Digits
import PathAcl.Time.Calendar
import PathAcl.Time.Instant
import PathAcl.Time.Rfc3339
import PathAcl.Time.Span
import PathAcl.Tree
import PathAcl.Tree.Node
import PathAcl.Validity
import PathAcl.Wire.Json
import PathAcl.Wire.Requests
import PathAcl.Wire.Settings
import PathAcl.WriterLocks
import PathAcl.Yaml.Folding
import PathAcl.Yaml.Layout
import PathAcl.Yaml.Node
import PathAcl.Yaml.Place
import PathAcl.Yaml.Plain
import PathAcl.Yaml.Quoted
import PathAcl.Yaml.Token
