import PgMesh.Store.CopyFrom
import PgMesh.Store.Wrappers
import Mathlib.Logic.Function.Basic

/-!
# Calls of the generated methods

A generated method chooses its targets, starts a span for each of them and
calls the wrapper of the query there.  A method over several replica sets does
so in one goroutine for each and joins what they return.
-/

namespace PgMesh.Store

open PgMesh.Foundation
open PgMesh.Topology

variable {δ τ S V ε κ A : Type}

abbrev QueryReplicaSet (δ τ : Type) := ReplicaSet (ReadQueries δ τ) (QueryStore δ τ)

/-! ## One target -/

/-- The routes to a replica set, with the counter that a read advances. -/
structure Target (δ τ : Type) where
  counter : Nat
  readRoute : UInt64 → Route (ReadQueries δ τ)
  writeRoute : Route (QueryStore δ τ)

namespace Target

def ofReplicaSet (s : QueryReplicaSet δ τ) : Target δ τ :=
  ⟨s.readTargets.next, s.readRoute, s.writeRoute⟩

def ofShard (s : ResolvedShard (QueryReplicaSet δ τ)) : Target δ τ :=
  ⟨s.replicaSet.readTargets.next, s.readRoute, s.writeRoute⟩

/-- `WithoutVirtualShard` on the metadata of every route. -/
def withoutVirtualShard (t : Target δ τ) : Target δ τ where
  counter := t.counter
  readRoute added :=
    ⟨(t.readRoute added).target, (t.readRoute added).metadata.withoutVirtualShard⟩
  writeRoute := ⟨t.writeRoute.target, t.writeRoute.metadata.withoutVirtualShard⟩

/-- Methods without an error result have no spans. -/
def span {α : Type} (traced : Bool) (metadata : RouteMetadata) (mode : RouteMode)
    (call : Method δ τ S V ε α) : Method δ τ S V ε α :=
  if traced then .ask (.startPhysicalQuerySpan metadata mode) fun _ => call else call

theorem span_asks {α : Type} {P : Request δ τ S → Prop} {traced : Bool}
    {metadata : RouteMetadata} {mode : RouteMode} {call : Method δ τ S V ε α}
    (hspan : P (.startPhysicalQuerySpan metadata mode)) (hcall : call.Asks P) :
    (span traced metadata mode call).Asks P := by
  unfold span
  split
  · exact ⟨hspan, fun _ => hcall⟩
  · exact hcall

variable [Inhabited V]

/-- A call through the write route. -/
def write (spec : QuerySpec ε) (options : CallOptions τ) (traced : Bool)
    (t : Target δ τ) (arg : S) : Method δ τ S V ε (V × Option (GoError ε)) :=
  let route := t.writeRoute
  match options.tx with
  | some tx =>
      span traced route.metadata .transaction ((route.target.withTx tx).call spec arg)
  | none => span traced route.metadata .primary (route.target.call spec arg)

def read (spec : QuerySpec ε) (options : CallOptions τ) (traced : Bool)
    (t : Target δ τ) (arg : S) : Method δ τ S V ε (V × Option (GoError ε)) :=
  match options.tx, options.primary with
  | some _, _ => t.write spec options traced arg
  | none, true => t.write spec options traced arg
  | none, false =>
      .ask (.add t.counter) fun added =>
        let route := t.readRoute added
        span traced route.metadata .read (route.target.call spec arg)

def query (spec : QuerySpec ε) (options : CallOptions τ) (traced : Bool)
    (t : Target δ τ) (arg : S) : Method δ τ S V ε (V × Option (GoError ε)) :=
  match spec.kind with
  | .read => t.read spec options traced arg
  | .write => t.write spec options traced arg

/-- The ways in which the generated methods address a replica set. -/
inductive Addresses (s : QueryReplicaSet δ τ) : Target δ τ → Prop
  | shard (i : UInt64) : Addresses s (ofShard ⟨i, s⟩)
  | group (i : UInt64) : Addresses s (ofShard ⟨i, s⟩).withoutVirtualShard
  | replicaSet : Addresses s (ofReplicaSet s)

end Target

/-! ## The methods -/

section Methods

variable [Inhabited κ]

/--
A method that queries one shard; a query without a route has no resolver.  The
result is `none` if the method panics, since without an error result it goes
on with a shard that was not found.
-/
def queryShard [Inhabited V] (s : MeshStore (QueryReplicaSet δ τ) κ A)
    (spec : QuerySpec ε) (operand : A) (storeOptions : List (Option (QueryOption τ)))
    (arg : S) : Method δ τ S V ε (Option (V × Option (GoError ε))) :=
  match s.resolve operand with
  | .error err =>
      if spec.returnsError then .done (some (default, some err)) else .done none
  | .ok shard =>
      ((Target.ofShard shard).query spec (applyQueryOptions storeOptions)
        spec.returnsError arg).bind fun result => .done (some result)

/--
A call of a method over several replica sets: what its goroutines execute, and
what it returns once they have returned in the given order.
-/
structure Call (δ τ S V ε α : Type) where
  goroutines : List (Method δ τ S V ε (V × Option (GoError ε)))
  join : List (Nat × V × Option (GoError ε)) → α

section GroupedMany

variable {Item Lookup K Row : Type} [GoAny K]

def queryMany (s : MeshStore (QueryReplicaSet δ τ) κ A)
    (q : ManyQuery Item Lookup K A Row) (errors : MirrorErrors ε)
    (arg : List (Option Item)) (storeOptions : List (Option (QueryOption τ))) :
    Call δ τ (List Lookup) (List Row) ε (List Row × Option (GoError ε)) :=
  let options := applyQueryOptions storeOptions
  { goroutines :=
      match manyPlan (ε := ε) s q arg options.flags with
      | .error _ => []
      | .ok plan =>
          plan.groups.map fun group =>
            (Target.ofShard group.shard).withoutVirtualShard.query
              ⟨errors, q.kind, true⟩ options true group.args
    join := fun completions =>
      groupedMany s q arg options.flags
        (completions.map fun (i, value, err) => (i, ⟨value, err⟩)) }

end GroupedMany

section Copy

variable {Item α : Type}

def queryCopy (s : MeshStore (QueryReplicaSet δ τ) κ A) (q : CopyQuery Item A α)
    (kind : QueryKind) (errors : MirrorErrors ε) (arg : List Item)
    (storeOptions : List (Option (QueryOption τ))) :
    Call δ τ (List α) Int64 ε (Int64 × Option (GoError ε)) :=
  let options := applyQueryOptions storeOptions
  { goroutines :=
      match copyGroups (ε := ε) s q arg options.flags.tx with
      | .error _ => []
      | .ok groups =>
          -- Also the copy of a query of kind read takes the write route.
          groups.map fun group =>
            (Target.ofShard group.shard).withoutVirtualShard.write
              ⟨errors, kind, true⟩ options true group.args
    join := fun completions =>
      copyFrom s q arg options.flags.tx
        (completions.map fun (i, count, err) => (i, ⟨count, err⟩)) }

end Copy

end Methods

section AllShards

variable {Row : Type}

/-- The commands that `shard: all()` allows. -/
inductive AllShardsCommand where
  | many
  | exec
  | execRows
  deriving DecidableEq, Repr

/-- What a query returns besides its error. -/
def AllShardsCommand.Value (Row : Type) : AllShardsCommand → Type
  | .many => List Row
  | .exec => Unit
  | .execRows => Int64

instance (command : AllShardsCommand) : Inhabited (command.Value Row) where
  default :=
    match command with
    | .many => ([] : List Row)
    | .exec => ()
    | .execRows => (0 : Int64)

/-- The loop over the results of the replica sets. -/
def AllShardsCommand.aggregate (command : AllShardsCommand)
    (values : List (command.Value Row)) : command.Value Row :=
  match command, values with
  | .many, values => values.foldl (fun rows value => List.append rows value) ([] : List Row)
  | .exec, _ => ()
  | .execRows, values =>
      values.foldl (fun count value => Int64.add count value) (0 : Int64)

structure AllShardsQuery where
  methodName : String
  kind : QueryKind
  command : AllShardsCommand

def joinShardResults (q : AllShardsQuery) (replicaSets : List (QueryReplicaSet δ τ))
    (shardResults : List (q.command.Value Row × Option (GoError ε))) :
    q.command.Value Row × Option (GoError ε) :=
  let shardErrors := (replicaSets.zip shardResults).filterMap
    fun (replicaSet, result) => result.2.map (shardError q.methodName replicaSet.name)
  match GoError.join shardErrors with
  | some err => (default, some err)
  | none => (q.command.aggregate (shardResults.map Prod.fst), none)

def queryAllShards (Row : Type) (mesh : Mesh (QueryReplicaSet δ τ) κ)
    (q : AllShardsQuery) (errors : MirrorErrors ε) (arg : S)
    (storeOptions : List (Option (QueryOption τ))) :
    Call δ τ S (q.command.Value Row) ε (q.command.Value Row × Option (GoError ε)) :=
  let options := applyQueryOptions storeOptions
  let replicaSets := mesh.replicaSets
  match options.tx with
  | some _ => ⟨[], fun _ => (default, some errCrossShardTransaction)⟩
  | none =>
      { goroutines := replicaSets.map fun replicaSet =>
          (Target.ofReplicaSet replicaSet).query ⟨errors, q.kind, true⟩ options true arg
        join := fun completions =>
          joinShardResults q replicaSets
            (fill (List.replicate replicaSets.length (default, none)) completions) }

end AllShards

/-! ## The read counters -/

/-- The values of the counters by their addresses. -/
abbrev Cursors := Nat → UInt64

/-- How a request is answered, and what it does to the counters. -/
inductive Serve : Cursors → MethodEvent δ τ S V ε → Cursors → Prop
  | add (cursors : Cursors) (counter : Nat) :
      Serve cursors ⟨.add counter, cursors counter + 1⟩
        (Function.update cursors counter (cursors counter + 1))
  | startPhysicalQuerySpan (cursors : Cursors) (metadata : RouteMetadata)
      (mode : RouteMode) :
      Serve cursors ⟨.startPhysicalQuerySpan metadata mode, ()⟩ cursors
  | execute (cursors : Cursors) (queries : Queries δ τ) (arg : S)
      (result : V × Option (GoError ε)) :
      Serve cursors ⟨.execute queries arg, result⟩ cursors

/-! ## Two sites -/

/-- East has a replica, and west is mirrored to east. -/
def siteQueries : MeshStore (QueryReplicaSet Nat Nat) Nat Nat where
  mesh :=
    let east := newReplicaSet 0 "east" (newStoreNode 0) [newStoreNode 1]
    let west := newReplicaSet 1 "west" (newStoreNode 2) []
    let west := west.withWriteMirrors 2 [east.primaryWriter]
    { virtualShards := [east, west]
      replicaSets := [east, west]
      hasher := UInt64.ofNat
      nonempty := by simp
      nodup := by decide
      mem_iff := by simp
      name_inj := by decide
      nonblank := by decide }
  resolver := some id

end PgMesh.Store
