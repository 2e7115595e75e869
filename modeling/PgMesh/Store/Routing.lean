import PgMesh.Topology.Builder

/-!
# Routing an operand to a replica set

Every routed method of a generated store turns the operand of its route into a
shard key, unless the store has no resolver, and resolves the key in the mesh.
Methods over many items collect one group for each replica set by its name and
then go over the groups in the order of `ReplicaSets()`.
-/

namespace PgMesh.Store

open PgMesh.Foundation
open PgMesh.Topology

/--
The part of a generated store that one route uses.  `A` is the type of the
shard key structure of the route and `κ` that of the shard key.
-/
structure MeshStore (ρ κ A : Type) [Named ρ] where
  mesh : Mesh ρ κ
  resolver : Option (A → κ)

variable {ρ κ A ε : Type} [Named ρ] [Inhabited κ]

namespace MeshStore

/-- `var shardKey SK`, overwritten by the resolver when there is one. -/
def shardKey (s : MeshStore ρ κ A) (operand : A) : κ :=
  match s.resolver with
  | none => default
  | some resolver => resolver operand

def resolve (s : MeshStore ρ κ A) (operand : A) :
    Except (GoError ε) (ResolvedShard ρ) :=
  s.mesh.resolve (s.shardKey operand)

/-- The name of the replica set of an operand that resolves. -/
def targetName? (s : MeshStore ρ κ A) (operand : A) : Option String :=
  (s.mesh.target? (s.shardKey operand)).map name

variable {s : MeshStore ρ κ A} {operand : A}

theorem targetName?_of_ok {shard : ResolvedShard ρ}
    (h : s.resolve (ε := ε) operand = .ok shard) :
    s.targetName? operand = some shard.replicaSetName := by
  unfold targetName?
  rw [Mesh.target?_of_ok h]
  rfl

theorem targetName?_of_error {err : GoError ε}
    (h : s.resolve operand = .error err) : s.targetName? operand = none := by
  unfold targetName?
  rw [Mesh.target?_of_error h]
  rfl

theorem replicaSet_mem_of_ok {shard : ResolvedShard ρ}
    (h : s.resolve (ε := ε) operand = .ok shard) :
    shard.replicaSet ∈ s.mesh.replicaSets :=
  Mesh.target?_mem (Mesh.target?_of_ok h)

end MeshStore

/-- The groups that exist, in the order of `ReplicaSets()`. -/
def populated {γ : Type} (mesh : Mesh ρ κ) (groups : GoMap String γ) : List γ :=
  mesh.replicaSets.filterMap fun r => GoMap.get? groups (name r)

def errCrossShardTransaction : GoError ε :=
  .new "pgmesh: transaction cannot span physical shards"

/-- The error of one replica set, as a method over several of them reports it. -/
def shardError (methodName shardName : String) (err : GoError ε) : GoError ε :=
  .errorf ("query " ++ methodName ++ " on replica set %q: %w")
    [.text shardName, .wrapped err]

/-! ## A store over two sites -/

def siteStore : MeshStore Site Nat Nat := ⟨twoSites, some id⟩

end PgMesh.Store
