import PgMesh.Foundation.GoError
import PgMesh.Foundation.Shares
import PgMesh.Store.GroupedMany
import PgMesh.Topology.ReplicaSet

/-!
# Spans of queries

A query is observed at up to three levels: the call of a wrapped store, the
logical operation and each physical execution.  The functions below are
programs over the operations of the tracer, the instruments and the logger, in
the order in which the code performs them.  A program may make other requests,
`X`, as well.
-/

namespace PgMesh

open PgMesh.Foundation
open PgMesh.Topology
open PgMesh.Store

def Store.QueryKind.text : QueryKind → String
  | .read => "read"
  | .write => "write"

def Topology.NodeRole.text : NodeRole → String
  | .primary => "primary"
  | .readReplica => "read_replica"
  | .transaction => "transaction"

namespace Telemetry

variable {ε X : Type} {B : X → Type}

/-! ## Attributes -/

inductive AttributeValue where
  | string (value : String)
  | int (value : Nat)
  | bool (value : Bool)
  deriving DecidableEq

structure KeyValue where
  key : String
  value : AttributeValue
  deriving DecidableEq

def KeyValue.string (key value : String) : KeyValue := ⟨key, .string value⟩

def attributeStoreName := "pgmesh.store.name"
def attributeQueryName := "pgmesh.query.name"
def attributeQueryKind := "pgmesh.query.kind"
def attributeReplicaSetName := "pgmesh.replica_set.name"
def attributeVirtualShardIndex := "pgmesh.virtual_shard.index"
def attributeNodeName := "pgmesh.node.name"
def attributeNodeRole := "pgmesh.node.role"
def attributeRouteMode := "pgmesh.route.mode"
def attributeRouteScope := "pgmesh.route.scope"
def attributeRouteReplicaSetCount := "pgmesh.route.replica_set_count"
def attributeStoreDelegated := "pgmesh.store.delegated"

/-- The mode of a route; `none` is `RouteModeUnresolved`. -/
def routeModeText : Option RouteMode → String
  | some .read => "read"
  | some .primary => "primary"
  | some .transaction => "transaction"
  | none => "unresolved"

inductive RouteScope where
  | single
  | fanout
  | unresolved
  deriving DecidableEq

def RouteScope.text : RouteScope → String
  | .single => "single"
  | .fanout => "fanout"
  | .unresolved => "unresolved"

/-! ## Operations -/

inductive Histogram where
  | storeDuration
  | logicalDuration
  | physicalDuration
  deriving DecidableEq

/-- A measurement; durations are in nanoseconds. -/
structure Point where
  histogram : Histogram
  value : Int
  attributes : List KeyValue
  deriving DecidableEq

inductive LogValue (ε : Type) where
  | string (value : String)
  | int (value : Nat)
  | bool (value : Bool)
  | duration (value : Int)
  | error (err : GoError ε)

/-- A record at level debug. -/
structure LogRecord (ε : Type) where
  message : String
  attributes : List (String × LogValue ε)

/-- The methods of a span; the status set is always `codes.Error`. -/
inductive SpanOperation (ε : Type) where
  | setAttributes (attributes : List KeyValue)
  | recordError (err : GoError ε)
  | setStatus (description : String)
  | finish

/-- Spans and execution states are told apart by the addresses they get. -/
inductive Operation (ε : Type) where
  | now
  | start (parent : Option Nat) (name : String) (attributes : List KeyValue)
  | onSpan (span : Nat) (operation : SpanOperation ε)
  | addInFlight (incr : Int) (attributes : List KeyValue)
  | record (point : Point)
  | enabled
  | logAttrs (record : LogRecord ε)
  | newExecution
  | storeExecuted (execution : Nat)
  | loadExecuted (execution : Nat)

def Operation.Answer : Operation ε → Type
  | .now => Int
  | .start _ _ _ => Nat
  | .enabled => Bool
  | .newExecution => Nat
  | .loadExecuted _ => Bool
  | _ => Unit

abbrev Traced (ε X : Type) (B : X → Type) (α : Type) :=
  Program (Operation ε ⊕ X) (Sum.elim Operation.Answer B) α

def perform (operation : Operation ε) : Traced ε X B operation.Answer :=
  Program.request (Sum.inl operation)

def onSpan (span : Nat) (operation : SpanOperation ε) : Traced ε X B Unit :=
  perform (.onSpan span operation)

/-! ## Contexts -/

structure InternalExecutionState where
  address : Nat
  owner : Nat
  deriving DecidableEq

/-- What telemetry reads of a context. -/
structure Context where
  span : Option Nat
  execution : Option InternalExecutionState
  deriving DecidableEq

/-- A mesh, by its address, and what its telemetry uses besides the providers. -/
structure MeshTelemetry (ε : Type) where
  mesh : Nat
  hasLogger : Bool
  errorType : GoError ε → String
  errorText : GoError ε → String

/-! ## Spans -/

structure StoreQuerySpan (ε : Type) where
  telemetry : MeshTelemetry ε
  span : Nat
  started : Int
  attributes : List KeyValue
  logAttributes : List (String × LogValue ε)
  execution : InternalExecutionState

structure LogicalQuerySpan (ε : Type) where
  telemetry : MeshTelemetry ε
  span : Nat
  started : Int
  attributes : List KeyValue
  storeName : String
  queryName : String
  kind : QueryKind
  routeMode : Option RouteMode
  routeScope : RouteScope
  replicaSetCount : Nat
  logAttributes : List (String × LogValue ε)

structure PhysicalQuerySpan (ε : Type) where
  telemetry : MeshTelemetry ε
  span : Nat
  started : Int
  metricAttributes : List KeyValue
  logAttributes : List (String × LogValue ε)

def queryAttributes (storeName queryName : String) (kind : QueryKind) : List KeyValue :=
  [.string attributeStoreName storeName,
   .string attributeQueryName queryName,
   .string attributeQueryKind kind.text]

def queryLogAttributes (storeName queryName : String) (kind : QueryKind) :
    List (String × LogValue ε) :=
  [("store_name", .string storeName),
   ("query_name", .string queryName),
   ("query_kind", .string kind.text)]

def startStoreQuerySpan (m : MeshTelemetry ε) (ctx : Context) (storeName queryName : String)
    (kind : QueryKind) : Traced ε X B (Context × StoreQuerySpan ε) := do
  let attributes := queryAttributes storeName queryName kind
  let span ← perform (.start ctx.span ("pgmesh.query.store." ++ storeName ++ "." ++ queryName)
    attributes)
  let address ← perform .newExecution
  let execution : InternalExecutionState := ⟨address, m.mesh⟩
  let started : Int ← perform .now
  return (⟨some span, some execution⟩,
    ⟨m, span, started, attributes, queryLogAttributes storeName queryName kind, execution⟩)

/-- The flag of the innermost wrapped call is set, if it is one of the same mesh. -/
def markExecuted (m : MeshTelemetry ε) (ctx : Context) : Traced ε X B Unit :=
  match ctx.execution with
  | none => return
  | some execution =>
      if execution.owner = m.mesh then perform (.storeExecuted execution.address) else return

def startLogicalQuerySpan (m : MeshTelemetry ε) (ctx : Context)
    (storeName queryName : String) (kind : QueryKind) :
    Traced ε X B (Context × LogicalQuerySpan ε) := do
  markExecuted m ctx
  let attributes := queryAttributes storeName queryName kind ++
    [.string attributeRouteMode (routeModeText none),
     .string attributeRouteScope RouteScope.unresolved.text]
  let span ← perform (.start ctx.span
    ("pgmesh.query.logical." ++ storeName ++ "." ++ queryName) attributes)
  let started : Int ← perform .now
  return ({ ctx with span := some span },
    { telemetry := m, span := span, started := started
      attributes := attributes.take 3
      storeName := storeName, queryName := queryName, kind := kind
      routeMode := none, routeScope := .unresolved, replicaSetCount := 0
      logAttributes := queryLogAttributes storeName queryName kind })

def routeScope (replicaSetCount : Nat) : RouteScope :=
  if 1 < replicaSetCount then .fanout else .single

def LogicalQuerySpan.setRoute (s : LogicalQuerySpan ε) (mode : RouteMode)
    (replicaSetCount : Nat) : Traced ε X B (LogicalQuerySpan ε) := do
  let scope := Telemetry.routeScope replicaSetCount
  onSpan s.span (.setAttributes
    [.string attributeRouteMode (routeModeText (some mode)),
     .string attributeRouteScope scope.text,
     ⟨attributeRouteReplicaSetCount, .int replicaSetCount⟩])
  return { s with routeMode := some mode, routeScope := scope,
                  replicaSetCount := replicaSetCount }

/-- A transaction need not run on the node of the route, so it stands for the node. -/
def nodeOf (route : RouteMetadata) (mode : RouteMode) : String × NodeRole :=
  if mode = .transaction then ("transaction", .transaction)
  else (route.nodeName, route.nodeRole)

def physicalAttributes (storeName queryName : String) (kind : QueryKind)
    (route : RouteMetadata) (mode : RouteMode) : List KeyValue :=
  queryAttributes storeName queryName kind ++
    [.string attributeReplicaSetName route.replicaSetName,
     .string attributeNodeName (nodeOf route mode).1,
     .string attributeNodeRole (nodeOf route mode).2.text,
     .string attributeRouteMode (routeModeText (some mode))] ++
    if route.hasVirtualShard then
      [.string attributeVirtualShardIndex (toString route.virtualShardIndex.toNat)]
    else []

def physicalLogAttributes (storeName queryName : String) (kind : QueryKind)
    (route : RouteMetadata) (mode : RouteMode) : List (String × LogValue ε) :=
  queryLogAttributes storeName queryName kind ++
    [("replica_set", .string route.replicaSetName),
     ("node", .string (nodeOf route mode).1),
     ("node_role", .string (nodeOf route mode).2.text),
     ("route_mode", .string (routeModeText (some mode)))] ++
    if route.hasVirtualShard then
      [("virtual_shard", .string (toString route.virtualShardIndex.toNat))]
    else []

def startPhysicalQuerySpan (m : MeshTelemetry ε) (ctx : Context)
    (storeName queryName : String) (kind : QueryKind) (route : RouteMetadata)
    (mode : RouteMode) : Traced ε X B (Context × PhysicalQuerySpan ε) := do
  let metricAttributes := physicalAttributes storeName queryName kind route mode
  let span ← perform (.start ctx.span
    ("pgmesh.query.physical." ++ storeName ++ "." ++ queryName) metricAttributes)
  perform (.addInFlight 1 metricAttributes)
  let started : Int ← perform .now
  return ({ ctx with span := some span },
    ⟨m, span, started, metricAttributes,
      physicalLogAttributes storeName queryName kind route mode⟩)

def LogicalQuerySpan.startPhysicalQuerySpan (s : LogicalQuerySpan ε) (ctx : Context)
    (route : RouteMetadata) (mode : RouteMode) :
    Traced ε X B (Context × PhysicalQuerySpan ε) :=
  Telemetry.startPhysicalQuerySpan s.telemetry ctx s.storeName s.queryName s.kind route mode

/-! ## The methods `End` -/

def errorTypeAttribute (m : MeshTelemetry ε) (err : GoError ε) : KeyValue :=
  .string "error.type" (m.errorType err)

def errorAttributes (m : MeshTelemetry ε) : Option (GoError ε) → List KeyValue
  | none => []
  | some err => [errorTypeAttribute m err]

/-- The branch of each `End` on an error. -/
def recordFailure (m : MeshTelemetry ε) (span : Nat) : Option (GoError ε) → Traced ε X B Unit
  | none => return
  | some err => do
      onSpan span (.recordError err)
      onSpan span (.setAttributes [errorTypeAttribute m err])
      onSpan span (.setStatus (m.errorText err))

/-- The record that each `End` writes if the logger takes it. -/
def logCompleted (m : MeshTelemetry ε) (message : String)
    (logAttributes : List (String × LogValue ε)) (duration : Int)
    (err : Option (GoError ε)) : Traced ε X B Unit := do
  if m.hasLogger then
    let enabled : Bool ← perform .enabled
    if enabled then
      let failed := [("failed", .bool err.isSome), ("duration", .duration duration)]
      let error :=
        match err with
        | none => []
        | some err => [("error", .error err)]
      perform (.logAttrs ⟨message, logAttributes ++ failed ++ error⟩)

def LogicalQuerySpan.finish (s : LogicalQuerySpan ε) (err : Option (GoError ε)) :
    Traced ε X B Unit := do
  let now : Int ← perform .now
  let duration := now - s.started
  recordFailure s.telemetry s.span err
  perform (.record ⟨.logicalDuration, duration,
    s.attributes ++
      [.string attributeRouteMode (routeModeText s.routeMode),
       .string attributeRouteScope s.routeScope.text] ++
      errorAttributes s.telemetry err⟩)
  logCompleted s.telemetry "pgmesh logical query completed"
    (s.logAttributes ++
      [("route_mode", .string (routeModeText s.routeMode)),
       ("route_scope", .string s.routeScope.text),
       ("replica_set_count", .int s.replicaSetCount)]) duration err
  onSpan s.span .finish

def PhysicalQuerySpan.finish (s : PhysicalQuerySpan ε) (err : Option (GoError ε)) :
    Traced ε X B Unit := do
  let now : Int ← perform .now
  let duration := now - s.started
  perform (.addInFlight (-1) s.metricAttributes)
  recordFailure s.telemetry s.span err
  perform (.record ⟨.physicalDuration, duration,
    s.metricAttributes ++ errorAttributes s.telemetry err⟩)
  logCompleted s.telemetry "pgmesh physical query completed" s.logAttributes duration err
  onSpan s.span .finish

def StoreQuerySpan.finish (s : StoreQuerySpan ε) (err : Option (GoError ε)) :
    Traced ε X B Unit := do
  let now : Int ← perform .now
  let duration := now - s.started
  let delegated ← perform (.loadExecuted s.execution.address)
  let delegatedAttribute : KeyValue := ⟨attributeStoreDelegated, .bool delegated⟩
  onSpan s.span (.setAttributes [delegatedAttribute])
  recordFailure s.telemetry s.span err
  perform (.record ⟨.storeDuration, duration,
    s.attributes ++ [delegatedAttribute] ++ errorAttributes s.telemetry err⟩)
  logCompleted s.telemetry "pgmesh store query completed"
    (s.logAttributes ++ [("store_delegated", .bool delegated)]) duration err
  onSpan s.span .finish

end Telemetry

end PgMesh
