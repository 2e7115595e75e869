import PgMesh.Plugin.Declarations
import PgMesh.Store.RoutingCode

/-!
# The routing code of generated stores

A query without a shard annotation resolves the zero key, and where its method
has no error result it drops the error of `Resolve`.  `generateWrapper` accepts
such queries only in a package without the Sharded topology.
-/

namespace PgMesh.Plugin

open PgMesh.Foundation
open PgMesh.Topology
open PgMesh.Store (MeshStore RoutingCode RoutingCall Routed Consulted SingletonTopology
  ShardedTopology QueryReplicaSet)

/-! ## Emission -/

def routingKind : QueryKind → Store.QueryKind
  | .read => .read
  | .write => .write

/-- The routing statements that `writeMeshStoreQueryMethod` writes. -/
def routingCode (query : GeneratedQuery) : RoutingCode :=
  match query.shardMode with
  | .all => .allShards (routingKind query.kind)
  | .groupedCopy => .groupedCopy
  | .groupedMany => .groupedMany (routingKind query.kind)
  | _ => .target query.route.isSome (lastResultIsError query.results) (routingKind query.kind)

/-- The methods of one query: its own, and those of an asynchronous COPY. -/
def methodCodes (query : GeneratedQuery) : List RoutingCode :=
  routingCode query ::
    if query.command = cmdCopyFrom then
      [.asyncCopy (query.shardMode = .groupedCopy), .flush]
    else []

/-- The parts of a generated package that decide which methods and topologies it has. -/
structure Wrapper where
  groups : List StoreGroup
  /-- The file `sharded` declares the Sharded topology. -/
  sharded : Bool

/-- The queries that methods are written for. -/
def Wrapper.queries (wrapper : Wrapper) : List StoreQuery :=
  wrapper.groups.flatMap StoreGroup.queries

/-! ## Modes -/

/-- The modes that a query can have, by its command, its results and whether it has a route. -/
inductive ModeOf (command : String) (results : List String) (routed : Bool) : ShardMode → Prop
  | unsharded : ModeOf command results routed .none
  | allShards (hcmd : command = cmdMany ∨ command = cmdExec ∨ command = cmdExecRows) :
      ModeOf command results routed .all
  | routed {mode : ShardMode} (hmode : mode ∈ [.routed, .groupedCopy, .groupedMany])
      (hrouted : routed = true) (herror : lastResultIsError results = true)
      (hbatch : hasPrefix command ":batch" = false)
      (hcopy : command = cmdCopyFrom → mode = .groupedCopy) : ModeOf command results routed mode

def GeneratedQuery.ModeOf (query : GeneratedQuery) : Prop :=
  Plugin.ModeOf query.command query.results query.route.isSome query.shardMode

/-- Only a query without a shard annotation has a method that is not safe by itself. -/
theorem shardMode_eq_none {query : GeneratedQuery} (hquery : query.ModeOf)
    {code : RoutingCode} (hcode : code ∈ methodCodes query)
    (h : code.discardsError = true ∨ code.ignoresResolver = true) :
    query.shardMode = .none := by
  by_contra hmode
  have hsafe : (routingCode query).discardsError = false ∧
      (routingCode query).ignoresResolver = false ∧
      (query.command = cmdCopyFrom → query.shardMode = .groupedCopy) := by
    unfold GeneratedQuery.ModeOf at hquery
    unfold routingCode
    generalize query.shardMode = mode at *
    cases hquery with
    | unsharded => exact absurd rfl hmode
    | allShards hcmd =>
        refine ⟨rfl, rfl, fun hcopy => ?_⟩
        rw [hcopy] at hcmd
        exact absurd hcmd (by decide)
    | routed hmem hrouted herror hbatch hcopy =>
        refine ⟨?_, ?_, hcopy⟩
        · simp only [List.mem_cons, List.not_mem_nil, or_false] at hmem
          rcases hmem with rfl | rfl | rfl <;> simp [RoutingCode.discardsError, herror]
        · simp only [List.mem_cons, List.not_mem_nil, or_false] at hmem
          rcases hmem with rfl | rfl | rfl <;> simp [RoutingCode.ignoresResolver, hrouted]
  obtain ⟨hdiscards, hignores, hcopy⟩ := hsafe
  rcases List.mem_cons.mp hcode with rfl | hcode
  · simp [hdiscards, hignores] at h
  · split at hcode
    case isTrue hcommand =>
      simp only [hcopy hcommand, decide_true, List.mem_cons, List.not_mem_nil, or_false] at hcode
      rcases hcode with rfl | rfl <;>
        simp [RoutingCode.discardsError, RoutingCode.ignoresResolver] at h
    case isFalse => cases hcode

theorem shardMode_of_batch {query : GeneratedQuery} (hquery : query.ModeOf)
    (hbatch : hasPrefix query.command ":batch" = true) : query.shardMode = .none := by
  unfold GeneratedQuery.ModeOf at hquery
  generalize query.shardMode = mode at *
  cases hquery with
  | unsharded => rfl
  | allShards hcmd =>
      rcases hcmd with hcmd | hcmd | hcmd <;> rw [hcmd] at hbatch <;> cases hbatch
  | routed _ _ _ hnot _ =>
      rw [hnot] at hbatch
      cases hbatch

section Generate

variable {ε : Type} [Unicode]

/-! ## Accepted packages -/

def checkMixedStore (queries : List StoreQuery) : Except (GoError ε) Unit :=
  if hasShardOperations queries then
    match queries.find? (·.shardMode = .none) with
    | some query =>
        .error (.errorf ("query %s must declare shard metadata because this store contains " ++
          "sharded queries; move unsharded queries to another generated store")
          [.text query.methodName])
    | none => .ok ()
  else .ok ()

/-- `generateWrapper` up to the point where it writes the files. -/
def generateWrapper (parseError : String → Option (GoError ε)) (opts : StoreOptions)
    (queries : List StoreQuery) (catalog : Catalog) : Except (GoError ε) Wrapper := do
  let _ ← collectShardRoutes (queries.map StoreQuery.toGeneratedQuery)
  let groups ← collectStoreGroups queries opts
  let aliases ← collectSQLCTypeAliases parseError opts queries catalog
  validateSQLCTypeAliases opts queries groups aliases
  checkMixedStore queries
  return ⟨groups, hasShardOperations queries⟩

/-! ## The modes of built queries -/

theorem modeOf_buildRoute {g : Generator ε} {query : Query} {arg ret : QueryValue}
    {results : List String} {ann : RouteAnnotation} {route : Option ShardRoute}
    {mode : ShardMode} {spec : Option GroupedManySpec}
    (h : buildRoute g query arg ret results ann = .ok (route, mode, spec)) :
    ModeOf query.cmd results route.isSome mode := by
  unfold buildRoute at h
  split at h
  · split at h
    · cases h
    split at h
    case isTrue hcmd =>
      cases h
      exact .allShards hcmd
    case isFalse => cases h
  split at h
  · cases h
  case isFalse hbatch =>
    obtain ⟨groupedMany, hlookup, h⟩ := bind_eq_ok.mp h
    obtain ⟨resolved, -, h⟩ := bind_eq_ok.mp h
    split at h
    · cases h
    case isFalse herror =>
      have herror : lastResultIsError results = true := by simpa using herror
      have hbatch : hasPrefix query.cmd ":batch" = false := by simpa using hbatch
      cases groupedMany with
      | none =>
          cases h
          refine .routed ?_ rfl herror hbatch fun hcopy => if_pos hcopy
          split <;> simp
      | some lookup =>
          cases h
          refine .routed (by simp) rfl herror hbatch fun hcopy => ?_
          -- only `:many` queries have a lookup
          rw [buildLookup, hcopy, if_neg (by decide)] at hlookup
          cases hlookup

theorem modeOf_buildQuery {g : Generator ε} {query : Query} {built : GeneratedQuery}
    (h : buildQuery g query = .ok built) : built.ModeOf := by
  obtain ⟨arg, -, h⟩ := bind_eq_ok.mp h
  obtain ⟨ret, -, h⟩ := bind_eq_ok.mp h
  obtain ⟨results, -, h⟩ := bind_eq_ok.mp h
  obtain ⟨⟨kind, ann, store⟩, -, h⟩ := bind_eq_ok.mp h
  cases ann with
  | none =>
      cases h
      exact .unsharded
  | some ann =>
      obtain ⟨⟨route, mode, spec⟩, hroute, h⟩ := bind_eq_ok.mp h
      cases h
      exact modeOf_buildRoute hroute

theorem modeOf_wrapQuery {query out : GeneratedQuery} {opts : Options}
    (h : wrapQuery (ε := ε) query opts = .ok out) (hquery : query.ModeOf) : out.ModeOf := by
  unfold wrapQuery at h
  split at h
  case h_1 =>
    cases h
    exact hquery
  case h_2 =>
    obtain ⟨⟨expression, w⟩, -, h⟩ := bind_eq_ok.mp h
    cases h
    exact hquery
  case h_3 route hroute hother =>
    obtain ⟨⟨wrapper, callArgs⟩, -, h⟩ := bind_eq_ok.mp h
    cases h
    rw [GeneratedQuery.ModeOf, hroute] at hquery
    exact hquery

theorem modeOf_buildStoreQueries {opts : StoreOptions} {g : Generator ε} {input : List Query}
    {queries : List StoreQuery} (h : buildStoreQueries opts g input = .ok queries)
    {query : StoreQuery} (hquery : query ∈ queries) : query.toGeneratedQuery.ModeOf := by
  obtain ⟨outs, houts, h⟩ := bind_eq_ok.mp h
  cases h
  obtain ⟨out, hout, rfl⟩ := List.mem_map.mp hquery
  obtain ⟨_, -, built, hbuilt, hwrap⟩ := exists_of_mem_buildQueries houts hout
  have hmode := modeOf_wrapQuery hwrap (modeOf_buildQuery hbuilt)
  obtain hsame | ⟨strct, -, -, -, hsame⟩ := aliasParams_cases opts out <;> rw [hsame] <;>
    exact hmode

/-! ## Safe routing -/

theorem generateWrapper_ok {parseError : String → Option (GoError ε)} {opts : StoreOptions}
    {queries : List StoreQuery} {catalog : Catalog} {wrapper : Wrapper}
    (h : generateWrapper parseError opts queries catalog = .ok wrapper) :
    (∀ query ∈ wrapper.queries, query ∈ queries) ∧
      (wrapper.sharded = true → ∀ query ∈ queries, query.shardMode ≠ .none) := by
  obtain ⟨routes, -, h⟩ := bind_eq_ok.mp h
  obtain ⟨groups, hgroups, h⟩ := bind_eq_ok.mp h
  obtain ⟨aliases, -, h⟩ := bind_eq_ok.mp h
  obtain ⟨-, -, h⟩ := bind_eq_ok.mp h
  obtain ⟨done, hmixed, h⟩ := bind_eq_ok.mp h
  cases h
  constructor
  · intro query hquery
    obtain ⟨rfl, -⟩ := collectStoreGroups_ok hgroups
    have hmem := (storeGroups_perm queries).mem_iff.mp hquery
    exact (List.mem_filter.mp hmem).1
  · intro hsharded query hquery hmode
    rw [checkMixedStore, if_pos hsharded] at hmixed
    cases hfind : queries.find? (·.shardMode = .none) with
    | some other =>
        rw [hfind] at hmixed
        cases hmixed
    | none =>
        rw [List.find?_eq_none] at hfind
        exact hfind query hquery (by simpa using hmode)

/--
Methods that drop the error of `Resolve` or do not ask the resolver are only in
packages without the Sharded topology.  A store of the Singleton topology resolves
every key.  So no call, on any topology of the package, routes through a shard that
was not resolved.
-/
theorem methods_route_through_resolved_shards {parseError : String → Option (GoError ε)}
    {opts : StoreOptions} {g : Generator ε} {input : List Query} {queries : List StoreQuery}
    {catalog : Catalog} {wrapper : Wrapper}
    (hbuild : buildStoreQueries opts g input = .ok queries)
    (hwrapper : generateWrapper parseError opts queries catalog = .ok wrapper) :
    (∀ query ∈ wrapper.queries, ∀ code ∈ methodCodes query.toGeneratedQuery,
      code.discardsError = true ∨ code.ignoresResolver = true →
        query.shardMode = .none ∧ wrapper.sharded = false) ∧
    (∀ query ∈ wrapper.queries, hasPrefix query.command ":batch" = true →
      query.shardMode = .none) ∧
    (∀ (δ η ρ A : Type) [Named ρ] [DecidableEq ρ] (c : SingletonTopology δ η)
      (newReplicaSet : String → δ → List δ → List δ → ρ)
      (telemetryErr providerErr : Option (GoError η)) (store : MeshStore ρ UInt8 A),
      c.buildStore newReplicaSet telemetryErr providerErr = .ok store →
        (∀ key, ∃ shard, store.mesh.resolve (ε := η) key = .ok shard) ∧
        ∀ query ∈ wrapper.queries, ∀ code ∈ methodCodes query.toGeneratedQuery,
          ∀ call : RoutingCall A, Routed store.mesh [] (code.run store call)) ∧
    (wrapper.sharded = true →
      ∀ (δ τ η π κ A : Type) [DecidableEq δ] [DecidableEq τ] [Inhabited κ]
        (c : ShardedTopology κ A δ η) (meterProvider : Option π)
        (setMeterProvider : Option π → Option (GoError η))
        (initializeCopyBatchers : Mesh (QueryReplicaSet δ τ) κ → Option (GoError η))
        (store : MeshStore (QueryReplicaSet δ τ) κ A),
        c.buildStore meterProvider setMeterProvider initializeCopyBatchers =
          some (.ok store) →
          ∀ query ∈ wrapper.queries, ∀ code ∈ methodCodes query.toGeneratedQuery,
            ∀ call : RoutingCall A,
              Routed store.mesh [] (code.run store call) ∧ Consulted (code.run store call)) := by
  obtain ⟨hqueries, hmixed⟩ := generateWrapper_ok hwrapper
  have hmode : ∀ query ∈ wrapper.queries, query.toGeneratedQuery.ModeOf :=
    fun query hquery => modeOf_buildStoreQueries hbuild (hqueries query hquery)
  have hsafe : ∀ query ∈ wrapper.queries, ∀ code ∈ methodCodes query.toGeneratedQuery,
      wrapper.sharded = true → code.discardsError = false ∧ code.ignoresResolver = false := by
    intro query hquery code hcode hsharded
    have hne := hmixed hsharded query (hqueries query hquery)
    constructor
    · by_contra hdiscards
      rw [Bool.not_eq_false] at hdiscards
      exact hne (shardMode_eq_none (hmode query hquery) hcode (.inl hdiscards))
    · by_contra hignores
      rw [Bool.not_eq_false] at hignores
      exact hne (shardMode_eq_none (hmode query hquery) hcode (.inr hignores))
  refine ⟨?_, ?_, ?_, ?_⟩
  · intro query hquery code hcode hunsafe
    have hnone := shardMode_eq_none (hmode query hquery) hcode hunsafe
    refine ⟨hnone, ?_⟩
    by_contra hsharded
    rw [Bool.not_eq_false] at hsharded
    exact hmixed hsharded query (hqueries query hquery) hnone
  · intro query hquery hbatch
    exact shardMode_of_batch (hmode query hquery) hbatch
  · intro δ η ρ A _ _ c newReplicaSet telemetryErr providerErr store hstore
    refine ⟨SingletonTopology.resolve_ok hstore, ?_⟩
    intro query hquery code hcode call
    refine RoutingCode.routed_run (.inr fun key => ?_) call
    obtain ⟨shard, hshard⟩ := SingletonTopology.resolve_ok hstore key
    rw [MeshStore.resolvedShard_of_ok hshard]
    simp
  · intro hsharded δ τ η π κ A _ _ _ c meterProvider setMeterProvider initializeCopyBatchers
      store hstore query hquery code hcode call
    obtain ⟨hdiscards, hignores⟩ := hsafe query hquery code hcode hsharded
    exact ⟨RoutingCode.routed_run (.inl hdiscards) call,
      RoutingCode.consulted_run hignores (ShardedTopology.buildStore_resolver hstore) call⟩

end Generate

local instance accountUnicode : Unicode := Unicode.ascii

/-- A package with two routed queries has the Sharded topology. -/
theorem methods_route_through_resolved_shards_account :
    ∃ queries wrapper,
      buildStoreQueries moodsOptions byAccount [getAccount, dropAccount] = .ok queries ∧
      generateWrapper (fun _ => none) moodsOptions queries ⟨"public", []⟩ =
        .ok (ε := GoError Unit) wrapper ∧
      wrapper.queries.length = 2 ∧ wrapper.sharded = true ∧
      ∀ query ∈ wrapper.queries, ∀ code ∈ methodCodes query.toGeneratedQuery,
        code.discardsError = true ∨ code.ignoresResolver = true →
          query.shardMode = .none ∧ wrapper.sharded = false := by
  obtain ⟨queries, wrapper, hbuild, hwrapper, hlength, hsharded⟩ :
      ∃ queries wrapper,
        buildStoreQueries moodsOptions byAccount [getAccount, dropAccount] = .ok queries ∧
        generateWrapper (fun _ => none) moodsOptions queries ⟨"public", []⟩ =
          .ok (ε := GoError Unit) wrapper ∧
        wrapper.queries.length = 2 ∧ wrapper.sharded = true :=
    ⟨_, _, rfl, rfl, rfl, rfl⟩
  exact ⟨queries, wrapper, hbuild, hwrapper, hlength, hsharded,
    (methods_route_through_resolved_shards hbuild hwrapper).1⟩

end PgMesh.Plugin
