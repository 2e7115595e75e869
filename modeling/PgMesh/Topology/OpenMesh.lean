import PgMesh.Foundation.Program
import PgMesh.Topology.BuilderRuns
import PgMesh.Topology.ReplicaSet
import PgMesh.Topology.Validate

/-!
# Opening a mesh

`OpenMesh` is a program whose requests are the calls of the node opener.  Once
all nodes are open it attaches the write mirrors and builds the mesh.
-/

namespace PgMesh.Topology

open PgMesh.Foundation

variable {R W κ ε π : Type}

inductive OpenMeshOption (π : Type) where
  | withReplicaSet (name primaryDSN : String) (replicaDSNs : List String)
  | withVirtualShardMapping (mainReplicaSet : String)
      (virtualShardIndexes : List UInt64) (mirrorReplicaSets : List String)
  | withTracerProvider
  | withMeterProvider (provider : Option π)
  | withLogger

def OpenMeshOption.apply (config : OpenMeshConfig π) :
    OpenMeshOption π → OpenMeshConfig π
  | .withReplicaSet name primaryDSN replicaDSNs =>
      { config with
        replicaSets := config.replicaSets ++ [⟨name, primaryDSN, replicaDSNs⟩] }
  | .withVirtualShardMapping mainReplicaSet virtualShardIndexes mirrorReplicaSets =>
      { config with
        mappings := config.mappings ++
          [⟨virtualShardIndexes, mainReplicaSet, mirrorReplicaSets⟩] }
  | .withTracerProvider => config
  | .withMeterProvider provider => { config with meterProvider := provider }
  | .withLogger => config

/-- The loop over the options, where `none` is a nil option. -/
def applyOptions : OpenMeshConfig π → List (Option (OpenMeshOption π) × Nat) →
    Except (GoError ε) (OpenMeshConfig π)
  | config, [] => .ok config
  | _, (none, index) :: _ =>
      .error (.errorf "pgmesh: mesh option %d is nil" [.number index])
  | config, (some option, _) :: options =>
      applyOptions (option.apply config) options

/-! ## Opening the nodes -/

/-- A program that calls the node opener with a DSN. -/
abbrev Opening (R W ε : Type) :=
  Program String fun _ => Except (GoError ε) (Node R W)

abbrev OpenEvent (R W ε : Type) :=
  Event String fun _ => Except (GoError ε) (Node R W)

def openReplicas (spec : ReplicaSetSpec) :
    List (Node R W) → List String →
      Opening R W ε (Except (GoError ε) (List (Node R W)))
  | replicas, [] => .done (.ok replicas)
  | replicas, replicaDSN :: replicaDSNs =>
      .ask replicaDSN fun
        | .error err =>
            .done (.error (.errorf "open replica node for replica set %q: %w"
              [.text spec.name, .wrapped err]))
        | .ok replica => openReplicas spec (replicas ++ [replica]) replicaDSNs

/-- Replica sets are allocated from `address` on. -/
def openReplicaSets :
    Nat → GoMap String (ReplicaSet R W) → List ReplicaSetSpec →
      Opening R W ε (Except (GoError ε) (GoMap String (ReplicaSet R W)))
  | _, replicaSets, [] => .done (.ok replicaSets)
  | address, replicaSets, spec :: specs =>
      .ask spec.primaryDSN fun
        | .error err =>
            .done (.error (.errorf "open primary node for replica set %q: %w"
              [.text spec.name, .wrapped err]))
        | .ok primary =>
            (openReplicas spec [] spec.replicaDSNs).bind fun
              | .error err => .done (.error err)
              | .ok replicas =>
                  openReplicaSets (address + 1)
                    (GoMap.set replicaSets spec.name
                      (newReplicaSet address spec.name primary replicas)) specs

/-! ## Attaching the mirrors -/

/-- The loop that fills `configured`; `none` means that it dereferences nil. -/
def configureMirrors (replicaSets : GoMap String (ReplicaSet R W)) :
    Nat → GoMap String (ReplicaSet R W) → List VirtualShardMapping →
      Option (GoMap String (ReplicaSet R W))
  | _, configured, [] => some configured
  | address, configured, mapping :: mappings =>
      if (GoMap.get? configured mapping.mainReplicaSet).isSome then
        configureMirrors replicaSets address configured mappings
      else
        match mapping.mirrorReplicaSets.mapM (GoMap.get? replicaSets),
          GoMap.get? replicaSets mapping.mainReplicaSet with
        | some mirrors, some main =>
            configureMirrors replicaSets (address + 1)
              (GoMap.set configured mapping.mainReplicaSet
                (main.withWriteMirrors address
                  (mirrors.map ReplicaSet.primaryWriter))) mappings
        | _, _ => none

/-- The calls of the builder's methods. -/
def builderOps (config : OpenMeshConfig π) (providerErr : Option (GoError ε))
    (shardHasher : Option (κ → UInt64))
    (configured : GoMap String (ReplicaSet R W)) :
    List (BuilderOp (ReplicaSet R W) κ ε) :=
  [.withShardHasher shardHasher, .withTracerProvider,
    .withMeterProvider providerErr, .withLogger] ++
  config.mappings.flatMap fun mapping =>
    mapping.virtualShardIndexes.map fun virtualShardIndex =>
      .mapVirtualShard virtualShardIndex
        (GoMap.get? configured mapping.mainReplicaSet)

section Open

variable [DecidableEq R] [DecidableEq W]

/-- `OpenMesh` once all nodes are open. -/
def assemble (config : OpenMeshConfig π) (telemetryErr providerErr : Option (GoError ε))
    (shardHasher : Option (κ → UInt64))
    (replicaSets : GoMap String (ReplicaSet R W)) :
    Option (Except (GoError ε) (Mesh (ReplicaSet R W) κ)) :=
  (configureMirrors replicaSets config.replicaSets.length [] config.mappings).map
    fun configured =>
      ((MeshBuilder.newMeshBuilder config.virtualShardCount telemetryErr).applyAll
        (builderOps config providerErr shardHasher configured)).build

/-- `OpenMesh` after its loop over the replica sets. -/
def afterOpening (config : OpenMeshConfig π)
    (setMeterProvider : Option π → Option (GoError ε))
    (shardHasher : Option (κ → UInt64)) :
    Except (GoError ε) (GoMap String (ReplicaSet R W)) →
      Opening R W ε (Option (Except (GoError ε) (Mesh (ReplicaSet R W) κ)))
  | .error err => .done (some (.error err))
  | .ok replicaSets =>
      .done (assemble config (setMeterProvider none)
        (setMeterProvider config.meterProvider) shardHasher replicaSets)

/--
The result is `none` when the function panics.  `setMeterProvider` gives the
error of registering the metrics with a provider, where nil is the global one.
-/
def openMesh (virtualShardCount : UInt64) (openerIsNil : Bool)
    (shardHasher : Option (κ → UInt64))
    (setMeterProvider : Option π → Option (GoError ε))
    (options : List (Option (OpenMeshOption π))) :
    Opening R W ε (Option (Except (GoError ε) (Mesh (ReplicaSet R W) κ))) :=
  match applyOptions ⟨[], virtualShardCount, [], none⟩ options.zipIdx with
  | .error err => .done (some (.error err))
  | .ok config =>
      match validateMeshConfig config (if openerIsNil then none else some ())
        shardHasher with
      | .error err => .done (some (.error err))
      | .ok () =>
          (openReplicaSets 0 [] config.replicaSets).bind
            (afterOpening config setMeterProvider shardHasher)

end Open

end PgMesh.Topology
