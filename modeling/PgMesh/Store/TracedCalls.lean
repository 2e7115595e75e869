import PgMesh.Foundation.ForkJoin
import PgMesh.Store.AsyncCopy
import PgMesh.Store.Calls
import PgMesh.Telemetry.Spans

/-!
# Generated methods with their telemetry

The generated methods again, with the spans that they start and end.  A method
sends the arguments of its statement to the database and scans what comes back;
what the methods of different queries do there can then be told in one language.
-/

namespace PgMesh.Store

open PgMesh.Foundation
open PgMesh.Topology
open PgMesh.Telemetry

variable {δ τ S V M R ε κ A : Type}

/--
What a method does besides telemetry.  `wait` is the wait for a future, or for
what the application made of a store.
-/
inductive StoreRequest (δ τ M : Type) where
  | add (counter : Nat)
  | execute (queries : Queries δ τ) (message : M)
  | wait

def StoreRequest.Answer (R ε : Type) : StoreRequest δ τ M → Type
  | .add _ => UInt64
  | .execute _ _ => R
  | .wait => Option (GoError ε)

abbrev TracedMethod (δ τ M R ε α : Type) :=
  Traced ε (StoreRequest δ τ M) (StoreRequest.Answer R ε) α

def ask (request : StoreRequest δ τ M) : TracedMethod δ τ M R ε (request.Answer R ε) :=
  Program.request (Sum.inr request)

/-- The sqlc method of a query. -/
structure Statement (S V M R ε : Type) where
  send : S → M
  scan : R → V × Option (GoError ε)

namespace Statement

def request (statement : Statement S V M R ε) : (request : Request δ τ S) →
    TracedMethod δ τ M R ε (Answer V ε request)
  | .add counter => ask (.add counter)
  | .startPhysicalQuerySpan _ _ => return ()
  | .execute queries arg => do
      let rows ← ask (.execute queries (statement.send arg))
      return statement.scan rows

/-- A method of a wrapper, which starts no span. -/
def run {α : Type} (statement : Statement S V M R ε) (method : Method δ τ S V ε α) :
    TracedMethod δ τ M R ε α :=
  method.translate statement.request

end Statement

/-! ## One target -/

/-- The start and the end of a physical query around its execution. -/
def physicalQuery (s : LogicalQuerySpan ε) (ctx : Context) (route : RouteMetadata)
    (mode : RouteMode) (call : TracedMethod δ τ M R ε (V × Option (GoError ε))) :
    TracedMethod δ τ M R ε (V × Option (GoError ε)) := do
  let r ← s.startPhysicalQuerySpan ctx route mode
  let result ← call
  r.2.finish result.2
  return result

section Target

variable [Inhabited V]

def Target.tracedWrite (statement : Statement S V M R ε) (spec : QuerySpec ε)
    (options : CallOptions τ) (s : LogicalQuerySpan ε) (ctx : Context) (mode : RouteMode)
    (t : Target δ τ) (arg : S) : TracedMethod δ τ M R ε (V × Option (GoError ε)) :=
  let route := t.writeRoute
  let target :=
    match options.tx with
    | some tx => route.target.withTx tx
    | none => route.target
  physicalQuery s ctx route.metadata mode (statement.run (target.call spec arg))

def Target.tracedRead (statement : Statement S V M R ε) (spec : QuerySpec ε)
    (options : CallOptions τ) (s : LogicalQuerySpan ε) (ctx : Context) (mode : RouteMode)
    (t : Target δ τ) (arg : S) : TracedMethod δ τ M R ε (V × Option (GoError ε)) :=
  match options.tx, options.primary with
  | some _, _ => t.tracedWrite statement spec options s ctx mode arg
  | none, true => t.tracedWrite statement spec options s ctx mode arg
  | none, false => do
      let added ← ask (.add t.counter)
      let route := t.readRoute added
      physicalQuery s ctx route.metadata mode (statement.run (route.target.call spec arg))

/-- A copy takes the write route whatever the kind of its query. -/
def Target.tracedQuery (statement : Statement S V M R ε) (spec : QuerySpec ε)
    (options : CallOptions τ) (copies : Bool) (s : LogicalQuerySpan ε) (ctx : Context)
    (mode : RouteMode) (t : Target δ τ) (arg : S) :
    TracedMethod δ τ M R ε (V × Option (GoError ε)) :=
  match copies, spec.kind with
  | false, .read => t.tracedRead statement spec options s ctx mode arg
  | _, _ => t.tracedWrite statement spec options s ctx mode arg

end Target

/-! ## Calls -/

/-- What the telemetry of a call is about, and the context that it was given. -/
structure TracedQuery (ε : Type) where
  telemetry : MeshTelemetry ε
  ctx : Context
  storeName : String
  queryName : String
  kind : QueryKind

/-- A method with an error result that queries one shard. -/
structure ShardCall (δ τ M R ε : Type) where
  S : Type
  V : Type
  inhabited : Inhabited V
  query : TracedQuery ε
  spec : QuerySpec ε
  statement : Statement S V M R ε
  options : CallOptions τ
  target : Except (GoError ε) (Target δ τ)
  arg : S

/-- What a method over several replica sets has decided when it records its route. -/
structure RoutePlan (δ τ S : Type) where
  mode : RouteMode
  replicaSetCount : Nat
  targets : List (Target δ τ × S)

/-- A method over several replica sets; it has no plan if an input has no route. -/
structure FanOutCall (δ τ M R ε : Type) where
  S : Type
  V : Type
  α : Type
  inhabited : Inhabited V
  query : TracedQuery ε
  spec : QuerySpec ε
  statement : Statement S V M R ε
  options : CallOptions τ
  copies : Bool
  plan : Option (RoutePlan δ τ S)
  join : List (Nat × V × Option (GoError ε)) → α × Option (GoError ε)

/-- `CopyXAsync`, with the number of its groups unless an input has no route. -/
structure CopyAsyncCall (ε : Type) where
  query : TracedQuery ε
  groups : Option Nat

/-- The execution of a batch of rows by the batcher of a replica set. -/
structure CopyBatchCall (δ τ M R ε : Type) where
  S : Type
  V : Type
  inhabited : Inhabited V
  query : TracedQuery ε
  spec : QuerySpec ε
  statement : Statement S V M R ε
  route : Route (QueryStore δ τ)
  rows : S

inductive TracedCall (δ τ M R ε : Type) where
  | shard (call : ShardCall δ τ M R ε)
  | fanOut (call : FanOutCall δ τ M R ε)
  | copyAsync (call : CopyAsyncCall ε)
  | copyBatch (call : CopyBatchCall δ τ M R ε)
  | wrapped (query : TracedQuery ε)

abbrev TracedForkJoin (δ τ M R ε : Type) :=
  ForkJoin (Operation ε ⊕ StoreRequest δ τ M)
    (Sum.elim Operation.Answer (StoreRequest.Answer R ε))

def TracedQuery.start (q : TracedQuery ε) :
    TracedMethod δ τ M R ε (Context × LogicalQuerySpan ε) :=
  startLogicalQuerySpan q.telemetry q.ctx q.storeName q.queryName q.kind

def ShardCall.program (c : ShardCall δ τ M R ε) :
    TracedMethod δ τ M R ε (c.V × Option (GoError ε)) :=
  haveI := c.inhabited
  do
    let (ctx, s) ← c.query.start
    match c.target with
    | .error err =>
        s.finish (some err)
        return (default, some err)
    | .ok target =>
        let mode := routeMode c.spec.kind c.options.flags
        let s ← s.setRoute mode 1
        let result ← target.tracedQuery c.statement c.spec c.options false s ctx mode c.arg
        s.finish result.2
        return result

def FanOutCall.forkJoin (c : FanOutCall δ τ M R ε) : TracedForkJoin δ τ M R ε :=
  haveI := c.inhabited
  { Local := Context × LogicalQuerySpan ε
    Part := c.V × Option (GoError ε)
    Result := c.α × Option (GoError ε)
    before := do
      let (ctx, s) ← c.query.start
      match c.plan with
      | none => return (ctx, s)
      | some plan =>
          let s ← s.setRoute plan.mode plan.replicaSetCount
          return (ctx, s)
    goroutines := fun (ctx, s) =>
      match c.plan with
      | none => []
      | some plan => plan.targets.map fun (target, arg) =>
          target.tracedQuery c.statement c.spec c.options c.copies s ctx plan.mode arg
    after := fun (_, s) completions => do
      let result := c.join completions
      s.finish result.2
      return result }

/-- The method and the goroutine of `finish`, which ends the span. -/
def CopyAsyncCall.program (c : CopyAsyncCall ε) :
    TracedMethod δ τ M R ε (Option (GoError ε)) := do
  let (_, s) ← c.query.start
  let s ←
    match c.groups with
    | none => pure s
    | some groups => s.setRoute .primary groups
  let err ← ask .wait
  s.finish err
  return err

def CopyBatchCall.program (c : CopyBatchCall δ τ M R ε) :
    TracedMethod δ τ M R ε (c.V × Option (GoError ε)) :=
  haveI := c.inhabited
  do
    let r ← startPhysicalQuerySpan c.query.telemetry c.query.ctx c.query.storeName
      c.query.queryName .write c.route.metadata .primary
    let result ← c.statement.run (c.route.target.call c.spec c.rows)
    r.2.finish result.2
    return result

/-- A method of the wrapper around what the application made of a store. -/
def wrappedProgram (q : TracedQuery ε) : TracedMethod δ τ M R ε (Option (GoError ε)) := do
  let (_, s) ← startStoreQuerySpan q.telemetry q.ctx q.storeName q.queryName q.kind
  let err ← ask .wait
  s.finish err
  return err

def TracedCall.forkJoin : TracedCall δ τ M R ε → TracedForkJoin δ τ M R ε
  | .shard call => .sequential call.program
  | .fanOut call => call.forkJoin
  | .copyAsync call => .sequential call.program
  | .copyBatch call => .sequential call.program
  | .wrapped q => .sequential (wrappedProgram q)

/-! ## The generated methods -/

/-- What a method records once it has its groups; `len(groups)` may be too many for a transaction. -/
def groupPlan (kind : QueryKind) (options : CallOptions τ) (targets : List (Target δ τ × S)) :
    RoutePlan δ τ S :=
  if options.tx.isSome && decide (targets.length > 1) then ⟨.transaction, targets.length, []⟩
  else ⟨routeMode kind options.flags, targets.length, targets⟩

section Generated

variable [Inhabited κ] (telemetry : MeshTelemetry ε) (ctx : Context) (storeName : String)

def tracedShard [Inhabited V] (s : MeshStore (QueryReplicaSet δ τ) κ A) (queryName : String)
    (spec : QuerySpec ε) (statement : Statement S V M R ε) (operand : A)
    (storeOptions : List (Option (QueryOption τ))) (arg : S) : ShardCall δ τ M R ε where
  S := S
  V := V
  inhabited := inferInstance
  query := ⟨telemetry, ctx, storeName, queryName, spec.kind⟩
  spec := spec
  statement := statement
  options := applyQueryOptions storeOptions
  target := (s.resolve operand).map Target.ofShard
  arg := arg

def tracedMany {Item Lookup K Row : Type} [GoAny K] (s : MeshStore (QueryReplicaSet δ τ) κ A)
    (q : ManyQuery Item Lookup K A Row) (errors : MirrorErrors ε)
    (statement : Statement (List Lookup) (List Row) M R ε) (arg : List (Option Item))
    (storeOptions : List (Option (QueryOption τ))) : FanOutCall δ τ M R ε where
  S := List Lookup
  V := List Row
  α := List Row
  inhabited := inferInstance
  query := ⟨telemetry, ctx, storeName, q.methodName, q.kind⟩
  spec := ⟨errors, q.kind, true⟩
  statement := statement
  options := applyQueryOptions storeOptions
  copies := false
  plan :=
    match groupLookups (ε := ε) s q [] [] arg.zipIdx with
    | .error _ => none
    | .ok (groupsByName, _) =>
        some (groupPlan q.kind (applyQueryOptions storeOptions)
          ((populated s.mesh groupsByName).map fun group =>
            ((Target.ofShard group.shard).withoutVirtualShard, group.args)))
  join := (queryMany s q errors arg storeOptions).join

def tracedCopy {Item α : Type} (s : MeshStore (QueryReplicaSet δ τ) κ A)
    (q : CopyQuery Item A α) (kind : QueryKind) (errors : MirrorErrors ε)
    (statement : Statement (List α) Int64 M R ε) (arg : List Item)
    (storeOptions : List (Option (QueryOption τ))) : FanOutCall δ τ M R ε where
  S := List α
  V := Int64
  α := Int64
  inhabited := inferInstance
  query := ⟨telemetry, ctx, storeName, q.methodName, kind⟩
  spec := ⟨errors, kind, true⟩
  statement := statement
  options := applyQueryOptions storeOptions
  copies := true
  plan :=
    match groupRows (ε := ε) s q q.methodName [] arg.zipIdx with
    | .error _ => none
    | .ok groupsByName =>
        some (groupPlan .write (applyQueryOptions storeOptions)
          ((populated s.mesh groupsByName).map fun group =>
            ((Target.ofShard group.shard).withoutVirtualShard, group.args)))
  join := (queryCopy s q kind errors arg storeOptions).join

omit [Inhabited κ] in
def tracedAllShards (Row : Type) (mesh : Mesh (QueryReplicaSet δ τ) κ) (q : AllShardsQuery)
    (errors : MirrorErrors ε) (statement : Statement S (q.command.Value Row) M R ε) (arg : S)
    (storeOptions : List (Option (QueryOption τ))) : FanOutCall δ τ M R ε where
  S := S
  V := q.command.Value Row
  α := q.command.Value Row
  inhabited := inferInstance
  query := ⟨telemetry, ctx, storeName, q.methodName, q.kind⟩
  spec := ⟨errors, q.kind, true⟩
  statement := statement
  options := applyQueryOptions storeOptions
  copies := false
  plan :=
    match (applyQueryOptions storeOptions).tx with
    | some _ => some ⟨.transaction, mesh.replicaSets.length, []⟩
    | none => some ⟨routeMode q.kind (applyQueryOptions storeOptions).flags,
        mesh.replicaSets.length,
        mesh.replicaSets.map fun replicaSet => (Target.ofReplicaSet replicaSet, arg)⟩
  join := (queryAllShards Row mesh q errors arg storeOptions).join

def tracedCopyAsync {Item α : Type} (s : MeshStore (QueryReplicaSet δ τ) κ A)
    (q : CopyQuery Item A α) (kind : QueryKind) (arg : List Item) : CopyAsyncCall ε where
  query := ⟨telemetry, ctx, storeName, asyncMethodName q, kind⟩
  groups :=
    match asyncCopyGroups (ε := ε) s q arg with
    | .error _ => none
    | .ok groups => some groups.length

end Generated

end PgMesh.Store
