import PgMesh.Foundation.Transition
import PgMesh.Foundation.GoError
import PgMesh.Foundation.Future
import PgMesh.Foundation.ListUpdate
import PgMesh.Foundation.Potential
import PgMesh.Foundation.GoMap
import PgMesh.Foundation.FanOut
import PgMesh.Foundation.Distinct
import PgMesh.Foundation.Program
import PgMesh.Foundation.Goroutines
import PgMesh.Foundation.Shares
import PgMesh.Foundation.ForkJoin
import PgMesh.Foundation.Cyclic
import PgMesh.Foundation.Text
import PgMesh.Foundation.Scopes
import PgMesh.Foundation.Replace
import PgMesh.Foundation.Lexemes
import PgMesh.Foundation.Scanner
import PgMesh.Foundation.Regexp
import PgMesh.Foundation.Retry
import PgMesh.Copy.Config
import PgMesh.Copy.Batcher
import PgMesh.Copy.Queue
import PgMesh.Copy.Moves
import PgMesh.Copy.Rows
import PgMesh.Copy.Order
import PgMesh.Copy.Requests
import PgMesh.Copy.Futures
import PgMesh.Copy.Capacity
import PgMesh.Copy.Boundaries
import PgMesh.Copy.Flush
import PgMesh.Copy.Isolation
import PgMesh.Copy.Settling
import PgMesh.Copy.Batches
import PgMesh.Copy.Observers
import PgMesh.Topology.Builder
import PgMesh.Topology.BuilderRuns
import PgMesh.Topology.Config
import PgMesh.Topology.Validate
import PgMesh.Topology.ReplicaSet
import PgMesh.Topology.OpenMesh
import PgMesh.Topology.Opened
import PgMesh.Topology.Hasher
import PgMesh.Topology.Balancing
import PgMesh.Store.Routing
import PgMesh.Store.Grouping
import PgMesh.Store.CopyFrom
import PgMesh.Store.AsyncCopy
import PgMesh.Store.FlushBarrier
import PgMesh.Store.CopyAgreement
import PgMesh.Store.AsyncFutures
import PgMesh.Store.AsyncRuns
import PgMesh.Store.AsyncSpans
import PgMesh.Store.FlushWaits
import PgMesh.Store.AsyncSettling
import PgMesh.Store.GroupedMany
import PgMesh.Store.ByName
import PgMesh.Store.ManyMerge
import PgMesh.Store.Singleton
import PgMesh.Store.Wrappers
import PgMesh.Store.Calls
import PgMesh.Telemetry.Spans
import PgMesh.Telemetry.Backend
import PgMesh.Telemetry.SpanShares
import PgMesh.Store.CopyMetrics
import PgMesh.Store.TracedCalls
import PgMesh.Store.TracedShares
import PgMesh.Store.TracedRuns
import PgMesh.Store.Preflight
import PgMesh.Store.Mirroring
import PgMesh.Store.Sharded
import PgMesh.Store.Dispatch
import PgMesh.Store.TracedErasure
import PgMesh.Store.RoutingCode
import PgMesh.Plugin.Naming
import PgMesh.Plugin.Query
import PgMesh.Plugin.Lookup
import PgMesh.Plugin.Route
import PgMesh.Plugin.Wrapper
import PgMesh.Plugin.Supply
import PgMesh.Plugin.Independence
import PgMesh.Plugin.KeyReads
import PgMesh.Plugin.RoutedKeys
import PgMesh.Plugin.Agreement
import PgMesh.Plugin.Annotation
import PgMesh.Plugin.Classify
import PgMesh.Plugin.SharedRoutes
import PgMesh.Plugin.StoreMethod
import PgMesh.Plugin.Options
import PgMesh.Plugin.Aliases
import PgMesh.Plugin.Declarations
import PgMesh.Plugin.Relations
import PgMesh.Plugin.RelationTokens
import PgMesh.Plugin.RelationLeaks
import PgMesh.Plugin.Patterns
import PgMesh.Plugin.Files
import PgMesh.Plugin.FreshNames
import PgMesh.Plugin.Emission
import PgMesh.Plugin.GoTypes
import PgMesh.Plugin.Imports
