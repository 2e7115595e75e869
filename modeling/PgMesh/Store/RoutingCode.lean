import PgMesh.Store.Sharded
import PgMesh.Store.Singleton

/-!
# The shards that a method routes through

A generated method resolves shard keys, and asks the shards it got for a read or
a write route.  `RoutingCode` is what the templates write for this, and a run of
it is the list of what happens in a call.
-/

namespace PgMesh.Store

open PgMesh.Foundation
open PgMesh.Topology

/-- The methods of `ResolvedShard` that read its replica set. -/
inductive ShardMethod where
  | readRoute
  | writeRoute
  | replicaSetName
  deriving DecidableEq, Repr

/--
A shard is `none` where the code has the zero value, which `Resolve` returns
together with an error and whose replica set is a nil pointer.
-/
inductive RoutingEvent (ρ κ : Type) where
  /-- A call of `Resolve`, with a key that the resolver gave or with the zero key. -/
  | resolve (consulted : Bool) (key : κ) (shard : Option (ResolvedShard ρ))
  | invoke (method : ShardMethod) (shard : Option (ResolvedShard ρ))
  | invokeSet (method : ShardMethod) (replicaSet : ρ)

/-- The routing statements of the method templates. -/
inductive RoutingCode where
  /-- One shard: the template has a call of the resolver, and checks the error. -/
  | target (consults checks : Bool) (kind : QueryKind)
  | allShards (kind : QueryKind)
  | groupedMany (kind : QueryKind)
  | groupedCopy
  | asyncCopy (grouped : Bool)
  | flush
  deriving DecidableEq, Repr

namespace RoutingCode

/-- The code has `shard, _ := mesh.Resolve(shardKey)`. -/
def discardsError : RoutingCode → Bool
  | .target _ checks _ => !checks
  | _ => false

/-- The code resolves `var shardKey SK` as it is. -/
def ignoresResolver : RoutingCode → Bool
  | .target consults _ _ => !consults
  | .asyncCopy grouped => !grouped
  | _ => false

end RoutingCode

/--
The arguments of a call, as far as routing reads them.  An item is `none` where
the loop over the items returns before it resolves a key, as for a nil item.
-/
structure RoutingCall (A : Type) where
  operand : A
  items : List (Option A)
  options : QueryOptions

def routeMethod : QueryKind → QueryOptions → ShardMethod
  | .read, options => if options.tx || options.primary then .writeRoute else .readRoute
  | .write, _ => .writeRoute

variable {ρ κ A : Type} [Named ρ]

namespace MeshStore

/-- What the variable `shard` is after `Resolve`. -/
def resolvedShard (s : MeshStore ρ κ A) (key : κ) : Option (ResolvedShard ρ) :=
  (s.mesh.resolve (ε := Empty) key).toOption

/-- Resolving with the resolver's key for an operand, or with the zero key. -/
def resolveEvent [Inhabited κ] (s : MeshStore ρ κ A) : Option A → RoutingEvent ρ κ
  | none => .resolve false default (s.resolvedShard default)
  | some operand =>
      .resolve s.resolver.isSome (s.shardKey operand) (s.resolvedShard (s.shardKey operand))

def addShard (groups : GoMap String (ResolvedShard ρ)) (shard : ResolvedShard ρ) :
    GoMap String (ResolvedShard ρ) :=
  if (GoMap.get? groups shard.replicaSetName).isSome then groups
  else GoMap.set groups shard.replicaSetName shard

/-- The loop over the items, and what the method does with the groups after it. -/
def groupItems [Inhabited κ] (s : MeshStore ρ κ A)
    (next : GoMap String (ResolvedShard ρ) → List (RoutingEvent ρ κ)) :
    GoMap String (ResolvedShard ρ) → List (Option A) → List (RoutingEvent ρ κ)
  | groups, [] => next groups
  | _, none :: _ => []
  | groups, some operand :: items =>
      s.resolveEvent (some operand) ::
        match s.resolvedShard (s.shardKey operand) with
        | none => []
        | some shard =>
            .invoke .replicaSetName (some shard) :: groupItems s next (addShard groups shard) items

def invokeAll (method : ShardMethod) (shards : List (ResolvedShard ρ)) :
    List (RoutingEvent ρ κ) :=
  shards.map fun shard => .invoke method (some shard)

/-- A method that goes over the groups, unless a transaction would span several. -/
def routeGroups (s : MeshStore ρ κ A) (method : ShardMethod) (tx : Bool)
    (groups : GoMap String (ResolvedShard ρ)) : List (RoutingEvent ρ κ) :=
  if tx && 1 < (populated s.mesh groups).length then []
  else invokeAll method (populated s.mesh groups)

end MeshStore

/-- What happens in a call. -/
def RoutingCode.run [Inhabited κ] (s : MeshStore ρ κ A) (call : RoutingCall A) :
    RoutingCode → List (RoutingEvent ρ κ)
  | .target consults checks kind =>
      let operand := if consults then some call.operand else none
      let shard := s.resolvedShard (if consults then s.shardKey call.operand else default)
      s.resolveEvent operand ::
        if checks && shard.isNone then [] else [.invoke (routeMethod kind call.options) shard]
  | .allShards kind =>
      if call.options.tx then []
      else s.mesh.replicaSets.map fun r => .invokeSet (routeMethod kind call.options) r
  | .groupedMany kind =>
      s.groupItems (s.routeGroups (routeMethod kind call.options) call.options.tx) [] call.items
  | .groupedCopy => s.groupItems (s.routeGroups .writeRoute call.options.tx) [] call.items
  | .asyncCopy true =>
      s.groupItems (fun groups => MeshStore.invokeAll .replicaSetName (populated s.mesh groups))
        [] call.items
  | .asyncCopy false =>
      s.resolveEvent none ::
        if (s.resolvedShard default).isNone then []
        else [.invoke .replicaSetName (s.resolvedShard default)]
  | .flush => []

/-! ## What a run may do -/

/--
Every method is called on a shard that `Resolve` has returned without an error, or
on a replica set of the mesh.  The list has the shards returned so far.
-/
def Routed (mesh : Mesh ρ κ) : List (ResolvedShard ρ) → List (RoutingEvent ρ κ) → Prop
  | _, [] => True
  | returned, .resolve _ key shard :: events =>
      shard = (mesh.resolve (ε := Empty) key).toOption ∧
        Routed mesh (shard.toList ++ returned) events
  | returned, .invoke _ shard :: events =>
      (∃ resolved ∈ returned, shard = some resolved) ∧ Routed mesh returned events
  | returned, .invokeSet _ replicaSet :: events =>
      replicaSet ∈ mesh.replicaSets ∧ Routed mesh returned events

/-- Every key comes from the resolver. -/
def Consulted (events : List (RoutingEvent ρ κ)) : Prop :=
  ∀ consulted key shard, .resolve consulted key shard ∈ events → consulted = true

section Runs

variable {s : MeshStore ρ κ A} {returned : List (ResolvedShard ρ)}

theorem routed_invokeAll {mesh : Mesh ρ κ} {method : ShardMethod}
    {shards : List (ResolvedShard ρ)} (h : ∀ shard ∈ shards, shard ∈ returned) :
    Routed mesh returned (MeshStore.invokeAll method shards) := by
  induction shards with
  | nil => trivial
  | cons shard shards ih =>
      rw [List.forall_mem_cons] at h
      exact ⟨⟨shard, h.1, rfl⟩, ih h.2⟩

theorem routed_replicaSets {mesh : Mesh ρ κ} {method : ShardMethod} {sets : List ρ}
    (h : ∀ r ∈ sets, r ∈ mesh.replicaSets) :
    Routed mesh returned (sets.map fun r => .invokeSet method r) := by
  induction sets with
  | nil => trivial
  | cons r sets ih =>
      rw [List.forall_mem_cons] at h
      exact ⟨h.1, ih h.2⟩

/-- The shards of the groups are among those returned. -/
def GroupsFrom (returned : List (ResolvedShard ρ)) (groups : GoMap String (ResolvedShard ρ)) :
    Prop :=
  ∀ name shard, GoMap.get? groups name = some shard → shard ∈ returned

theorem GroupsFrom.populated {groups : GoMap String (ResolvedShard ρ)}
    (h : GroupsFrom returned groups) : ∀ shard ∈ populated s.mesh groups, shard ∈ returned := by
  intro shard hshard
  obtain ⟨r, -, hget⟩ := List.mem_filterMap.mp hshard
  exact h _ shard hget

theorem GroupsFrom.addShard {groups : GoMap String (ResolvedShard ρ)}
    (h : GroupsFrom returned groups) (shard : ResolvedShard ρ) :
    GroupsFrom (shard :: returned) (MeshStore.addShard groups shard) := by
  intro name other hget
  rw [MeshStore.addShard] at hget
  split at hget
  case isTrue => exact List.mem_cons_of_mem _ (h name other hget)
  case isFalse =>
    rw [GoMap.get?_set] at hget
    split at hget
    case isTrue =>
      cases hget
      exact List.mem_cons_self
    case isFalse => exact List.mem_cons_of_mem _ (h name other hget)

omit [Named ρ] in
theorem groupsFrom_nil : GroupsFrom returned [] := by
  intro name shard hget
  cases hget

theorem routed_routeGroups {method : ShardMethod} {tx : Bool}
    {groups : GoMap String (ResolvedShard ρ)} (h : GroupsFrom returned groups) :
    Routed s.mesh returned (s.routeGroups method tx groups) := by
  rw [MeshStore.routeGroups]
  split
  · trivial
  · exact routed_invokeAll h.populated

omit [Named ρ] in
theorem consulted_invokeAll (method : ShardMethod) (shards : List (ResolvedShard ρ)) :
    Consulted (κ := κ) (MeshStore.invokeAll method shards) := by
  intro consulted key shard hmem
  obtain ⟨_, -, heq⟩ := List.mem_map.mp hmem
  cases heq

theorem consulted_routeGroups (method : ShardMethod) (tx : Bool)
    (groups : GoMap String (ResolvedShard ρ)) : Consulted (s.routeGroups method tx groups) := by
  rw [MeshStore.routeGroups]
  split
  · exact fun _ _ _ hmem => absurd hmem List.not_mem_nil
  · exact consulted_invokeAll _ _

variable [Inhabited κ]

/-- The loop over the items keeps only shards that were returned. -/
theorem routed_groupItems {next : GoMap String (ResolvedShard ρ) → List (RoutingEvent ρ κ)}
    (hnext : ∀ returned groups, GroupsFrom returned groups → Routed s.mesh returned (next groups))
    {groups : GoMap String (ResolvedShard ρ)} (h : GroupsFrom returned groups)
    (items : List (Option A)) : Routed s.mesh returned (s.groupItems next groups items) := by
  induction items generalizing returned groups with
  | nil => exact hnext returned groups h
  | cons item items ih =>
      cases item with
      | none => trivial
      | some operand =>
          rw [MeshStore.groupItems]
          refine ⟨rfl, ?_⟩
          cases hshard : s.resolvedShard (s.shardKey operand) with
          | none => trivial
          | some shard =>
              exact ⟨⟨shard, List.mem_cons_self, rfl⟩, ih (h.addShard shard)⟩

/--
A method routes through resolved shards only if it checks the error of `Resolve`,
or if there is no such error.
-/
theorem RoutingCode.routed_run {code : RoutingCode}
    (h : code.discardsError = false ∨ ∀ key, s.resolvedShard key ≠ none)
    (call : RoutingCall A) : Routed s.mesh [] (code.run s call) := by
  cases code with
  | target consults checks kind =>
      have hchecks : ∀ key, checks = true ∨ s.resolvedShard key ≠ none := by
        intro key
        rcases h with h | h
        · exact .inl (by simpa [discardsError] using h)
        · exact .inr (h key)
      cases consults with
      | true =>
          refine ⟨rfl, ?_⟩
          cases hshard : s.resolvedShard (s.shardKey call.operand) with
          | none =>
              have hchecked := (hchecks _).resolve_right (fun hne => hne hshard)
              simp [hshard, hchecked, Routed]
          | some shard => simp [hshard, Routed]
      | false =>
          refine ⟨rfl, ?_⟩
          cases hshard : s.resolvedShard default with
          | none =>
              have hchecked := (hchecks _).resolve_right (fun hne => hne hshard)
              simp [hshard, hchecked, Routed]
          | some shard => simp [hshard, Routed]
  | allShards kind =>
      rw [run]
      split
      · trivial
      · exact routed_replicaSets fun r hr => hr
  | groupedMany kind =>
      exact routed_groupItems (fun _ _ => routed_routeGroups) groupsFrom_nil call.items
  | groupedCopy =>
      exact routed_groupItems (fun _ _ => routed_routeGroups) groupsFrom_nil call.items
  | asyncCopy grouped =>
      cases grouped with
      | true =>
          exact routed_groupItems (fun _ _ h => routed_invokeAll h.populated) groupsFrom_nil
            call.items
      | false =>
          refine ⟨rfl, ?_⟩
          cases hshard : s.resolvedShard default with
          | none => simp [Routed]
          | some shard => simp [Routed]
  | flush => trivial

/-! ## Consulting the resolver -/

theorem consulted_groupItems {next : GoMap String (ResolvedShard ρ) → List (RoutingEvent ρ κ)}
    (hresolver : s.resolver.isSome = true) (hnext : ∀ groups, Consulted (next groups))
    (groups : GoMap String (ResolvedShard ρ)) (items : List (Option A)) :
    Consulted (s.groupItems next groups items) := by
  induction items generalizing groups with
  | nil => exact hnext groups
  | cons item items ih =>
      cases item with
      | none => exact fun _ _ _ hmem => absurd hmem List.not_mem_nil
      | some operand =>
          rw [MeshStore.groupItems]
          intro consulted key shard hmem
          rcases List.mem_cons.mp hmem with heq | hmem
          · cases heq
            exact hresolver
          · cases hshard : s.resolvedShard (s.shardKey operand) with
            | none =>
                rw [hshard] at hmem
                exact absurd hmem List.not_mem_nil
            | some resolved =>
                rw [hshard] at hmem
                rcases List.mem_cons.mp hmem with heq | hmem
                · cases heq
                · exact ih _ consulted key shard hmem

theorem RoutingCode.consulted_run {code : RoutingCode} (hcode : code.ignoresResolver = false)
    (hresolver : s.resolver.isSome = true) (call : RoutingCall A) :
    Consulted (code.run s call) := by
  cases code with
  | target consults checks kind =>
      obtain rfl : consults = true := by simpa [ignoresResolver] using hcode
      intro consulted key shard hmem
      rcases List.mem_cons.mp hmem with heq | hmem
      · cases heq
        exact hresolver
      · split at hmem <;> simp at hmem
  | allShards kind =>
      intro consulted key shard hmem
      rw [run] at hmem
      split at hmem <;> simp at hmem
  | groupedMany kind =>
      exact consulted_groupItems hresolver (consulted_routeGroups _ _) _ call.items
  | groupedCopy => exact consulted_groupItems hresolver (consulted_routeGroups _ _) _ call.items
  | asyncCopy grouped =>
      obtain rfl : grouped = true := by simpa [ignoresResolver] using hcode
      exact consulted_groupItems hresolver (fun groups => consulted_invokeAll _ _) _ call.items
  | flush => exact fun _ _ _ hmem => absurd hmem List.not_mem_nil

end Runs

/-! ## The topologies -/

theorem MeshStore.resolvedShard_of_ok {s : MeshStore ρ κ A} {key : κ} {shard : ResolvedShard ρ}
    (h : s.mesh.resolve (ε := Empty) key = .ok shard) : s.resolvedShard key = some shard := by
  rw [resolvedShard, h]
  rfl

theorem SingletonTopology.resolve_ok {δ ε : Type} [DecidableEq ρ] {c : SingletonTopology δ ε}
    {newReplicaSet : String → δ → List δ → List δ → ρ}
    {telemetryErr providerErr : Option (GoError ε)} {store : MeshStore ρ UInt8 A}
    (h : c.buildStore newReplicaSet telemetryErr providerErr = .ok store) {η : Type}
    (key : UInt8) : ∃ shard, store.mesh.resolve (ε := η) key = .ok shard := by
  obtain ⟨-, r, hr⟩ := buildStore_target h
  exact ⟨_, Mesh.resolve_of_target? (hr key)⟩

/-! ## The methods that query one shard -/

section Connected

variable {δ τ S V ε : Type} [Inhabited κ] [Inhabited V]

theorem bind_some_ne_done_none {Q α : Type} {B : Q → Type} (p : Program Q B α) :
    p.bind (fun result => .done (some result)) ≠ .done none := by
  cases p with
  | done value => exact fun h => by cases h
  | ask request next => exact fun h => by cases h

/-- The method panics exactly when it routes through a shard that was not resolved. -/
theorem queryShard_panics_iff (s : MeshStore (QueryReplicaSet δ τ) κ A) (spec : QuerySpec ε)
    (operand : A) (storeOptions : List (Option (QueryOption τ))) (arg : S) :
    queryShard (V := V) s spec operand storeOptions arg = .done none ↔
      ¬ Routed s.mesh []
        ((RoutingCode.target true spec.returnsError spec.kind).run s
          ⟨operand, [], (applyQueryOptions storeOptions).flags⟩) := by
  have hrun : ∀ shard, s.resolvedShard (s.shardKey operand) = shard →
      (Routed s.mesh []
        ((RoutingCode.target true spec.returnsError spec.kind).run s
          ⟨operand, [], (applyQueryOptions storeOptions).flags⟩) ↔
        spec.returnsError = true ∨ shard.isSome = true) := by
    rintro shard hshard
    have hoption : (s.mesh.resolve (ε := Empty) (s.shardKey operand)).toOption = shard := hshard
    cases shard <;> cases hreturns : spec.returnsError <;>
      simp [RoutingCode.run, MeshStore.resolveEvent, Routed, hshard, hoption]
  cases hresolve : s.resolve (ε := ε) operand with
  | error err =>
      have hnone : s.resolvedShard (s.shardKey operand) = none := by
        cases hempty : s.mesh.resolve (ε := Empty) (s.shardKey operand) with
        | ok shard =>
            have htarget := Mesh.target?_of_ok hempty
            rw [Mesh.target?_of_error hresolve] at htarget
            cases htarget
        | error err =>
            rw [MeshStore.resolvedShard, hempty]
            rfl
      rw [hrun none hnone, queryShard, hresolve]
      cases spec.returnsError <;> simp
  | ok shard =>
      have hsome := MeshStore.resolvedShard_of_ok
        (Mesh.resolve_of_target? (Mesh.target?_of_ok hresolve))
      rw [hrun _ hsome, queryShard, hresolve]
      refine iff_of_false ?_ (by simp)
      exact bind_some_ne_done_none _

end Connected

end PgMesh.Store
