import ReplicaIntake.KeyMap
import ReplicaIntake.Lineage
import ReplicaIntake.Metadata
import ReplicaIntake.Ancestry
import ReplicaIntake.ShadowKey
import ReplicaIntake.Format.Utf8
import ReplicaIntake.Format.Decimal
import ReplicaIntake.Format.Double
import ReplicaIntake.Format.Hex
import ReplicaIntake.Format.Binary
import ReplicaIntake.Format.Graphic
import ReplicaIntake.Format.Quoted
import ReplicaIntake.Counter
import ReplicaIntake.Json.Basic
import ReplicaIntake.Json.Numeral
import ReplicaIntake.Json.Literal
import ReplicaIntake.Json.Token
import ReplicaIntake.Json.Text
import ReplicaIntake.Json.Fields
import ReplicaIntake.Document
import ReplicaIntake.Record
import ReplicaIntake.Notification
import ReplicaIntake.PostCommit
import ReplicaIntake.Broadcast
import ReplicaIntake.Policy
import ReplicaIntake.Storage
import ReplicaIntake.Storage.Faults
import ReplicaIntake.Config
import ReplicaIntake.Toml.Value
import ReplicaIntake.Toml.Text
import ReplicaIntake.Toml.Number
import ReplicaIntake.Toml.Document
import ReplicaIntake.Config.Text
import ReplicaIntake.Intake
import ReplicaIntake.Wire
import ReplicaIntake.Store.Error
import ReplicaIntake.Store.Format
import ReplicaIntake.Store.Backend
import ReplicaIntake.Store.Memory
import ReplicaIntake.Store.Overlay
import ReplicaIntake.Store.Database
import ReplicaIntake.Store.LocalWrite
import ReplicaIntake.Store.Batch
import ReplicaIntake.Store.Command
import ReplicaIntake.Store.Session
import ReplicaIntake.Disk
import ReplicaIntake.Node
import ReplicaIntake.NodeId
import ReplicaIntake.Proofs.ShadowNames
import ReplicaIntake.Proofs.Ancestry
import ReplicaIntake.Proofs.Lineages
import ReplicaIntake.Proofs.BoundedUnions
import ReplicaIntake.Proofs.SlidingWindows
import ReplicaIntake.Proofs.Policies
import ReplicaIntake.Proofs.CounterTotals
import ReplicaIntake.Proofs.CounterExchanges
import ReplicaIntake.Proofs.Memory.Operations
import ReplicaIntake.Proofs.Memory.Contention
import ReplicaIntake.Proofs.Memory.Ways
import ReplicaIntake.Proofs.Memory.Taking
import ReplicaIntake.Proofs.Memory.PlainRecords
import ReplicaIntake.Proofs.Memory.LocalWrites
import ReplicaIntake.Proofs.Memory.Histories
import ReplicaIntake.Proofs.Memory.Markers
import ReplicaIntake.Proofs.Memory.LateWrites
import ReplicaIntake.Proofs.Memory.Redeliveries
import ReplicaIntake.Proofs.Memory.Families
import ReplicaIntake.Proofs.Memory.Arrivals
import ReplicaIntake.Proofs.Memory.CounterRuns
import ReplicaIntake.Proofs.Memory.ConcurrentPuts
import ReplicaIntake.Proofs.Memory.NewestWins
import ReplicaIntake.Proofs.Memory.MergedCounters
import ReplicaIntake.Proofs.Memory.Exchanges
import ReplicaIntake.Proofs.Memory.Flags
import ReplicaIntake.Proofs.Memory.Edits
import ReplicaIntake.Proofs.Memory.FalseMarkers
import ReplicaIntake.Proofs.Memory.Namesakes
import ReplicaIntake.Proofs.Memory.Repetitions
import ReplicaIntake.Proofs.Memory.Decisions
import ReplicaIntake.Proofs.Memory.StoredMetadata
import ReplicaIntake.Proofs.Memory.BoundedLineages
import ReplicaIntake.Proofs.Memory.Resolutions
import ReplicaIntake.Proofs.Memory.CausalChains
import ReplicaIntake.Proofs.Memory.EitherOrder
import ReplicaIntake.Proofs.Memory.CoveredWrites
import ReplicaIntake.Proofs.Memory.MergedTombstones
import ReplicaIntake.Proofs.Memory.FreshVersions
import ReplicaIntake.Proofs.Memory.DistinctSides
import ReplicaIntake.Proofs.Memory.RepeatedEntries
import ReplicaIntake.Proofs.Refusals
import ReplicaIntake.Proofs.Format.Decimals
import ReplicaIntake.Proofs.Format.Binaries
import ReplicaIntake.Proofs.Format.Truncations
import ReplicaIntake.Proofs.Json.Literals
import ReplicaIntake.Proofs.Json.Texts
import ReplicaIntake.Proofs.Json.WrittenTexts
import ReplicaIntake.Proofs.WireForms
import ReplicaIntake.Proofs.Documents
import ReplicaIntake.Proofs.Lockstep
import ReplicaIntake.Proofs.LockstepRuns
import ReplicaIntake.Proofs.VersionCounts
import ReplicaIntake.Proofs.LocalHistories
import ReplicaIntake.Proofs.Overhearing
import ReplicaIntake.Proofs.DueNotifications
import ReplicaIntake.Proofs.Memory.Overlays
import ReplicaIntake.Proofs.Memory.Mirrors
import ReplicaIntake.Proofs.Memory.Batches
import ReplicaIntake.Proofs.Memory.Etags
import ReplicaIntake.Proofs.Memory.LastingConflicts
import ReplicaIntake.Proofs.Memory.Announcements
import ReplicaIntake.Proofs.PayloadsInUse
import ReplicaIntake.Proofs.Database.Rows
import ReplicaIntake.Proofs.Database.Agreement
import ReplicaIntake.Proofs.Database.Transactions
import ReplicaIntake.Proofs.Database.StoredRecords
import ReplicaIntake.Proofs.Database.SharedFiles
import ReplicaIntake.Proofs.Database.OwnWrites
