import PgMesh.Topology.Builder

/-!
# Mesh configurations

`OpenMesh` collects its options in a configuration and checks it before it
opens any node.  `ConsistentUpTo` says what a configuration has to be; its
parameter is the comparison of the mirror lists of one main replica set.
-/

namespace PgMesh.Topology

open PgMesh.Foundation

variable {ε : Type}

structure ReplicaSetSpec where
  name : String
  primaryDSN : String
  replicaDSNs : List String
  deriving DecidableEq, Repr

structure VirtualShardMapping where
  virtualShardIndexes : List UInt64
  mainReplicaSet : String
  mirrorReplicaSets : List String
  deriving DecidableEq, Repr

/-- `π` is the type of meter providers; the tracer provider and the logger are left out. -/
structure OpenMeshConfig (π : Type) where
  replicaSets : List ReplicaSetSpec
  virtualShardCount : UInt64
  mappings : List VirtualShardMapping
  meterProvider : Option π

/-! ## Errors -/

def errNoReplicaSets : GoError ε :=
  .new "pgmesh: at least one replica set is required"

def errNilNodeOpener : GoError ε := .new "pgmesh: node opener is required"

def errEmptyDSN : GoError ε := .new "pgmesh: connection DSN must not be empty"

def errUnknownReplicaSet : GoError ε := .new "pgmesh: unknown replica set"

def errMirrorConfiguration : GoError ε :=
  .new "pgmesh: inconsistent mirror configuration"

/-! ## The checks -/

/-- `strings.Join`. -/
def join (elems : List String) (sep : String) : String :=
  String.ofList (sep.toList.intercalate (elems.map String.toList))

/-- The mirror names of a mapping, as `mirrorConfigurations` keeps them. -/
def mirrorConfiguration (mirrors : List String) : String := join mirrors "\x00"

def checkReplicas (spec : ReplicaSetSpec) :
    List (String × Nat) → Except (GoError ε) Unit
  | [] => .ok ()
  | (replicaDSN, index) :: replicas =>
      if isBlank replicaDSN then
        .error (.errorf "%w: replica %d of %q"
          [.wrapped errEmptyDSN, .number index, .text spec.name])
      else checkReplicas spec replicas

def checkReplicaSets :
    GoMap String Unit → List ReplicaSetSpec →
      Except (GoError ε) (GoMap String Unit)
  | names, [] => .ok names
  | names, spec :: specs =>
      if isBlank spec.name then .error errEmptyReplicaSetName
      else if (GoMap.get? names spec.name).isSome then
        .error (.errorf "%w: %q"
          [.wrapped errDuplicateReplicaSet, .text spec.name])
      else if isBlank spec.primaryDSN then
        .error (.errorf "%w: primary of %q"
          [.wrapped errEmptyDSN, .text spec.name])
      else
        match checkReplicas spec spec.replicaDSNs.zipIdx with
        | .error err => .error err
        | .ok () => checkReplicaSets (GoMap.set names spec.name ()) specs

def checkMirrors (names : GoMap String Unit) (mainReplicaSet : String) :
    GoMap String Unit → List String → Except (GoError ε) Unit
  | _, [] => .ok ()
  | seenMirrors, mirror :: mirrors =>
      if (GoMap.get? names mirror).isNone then
        .error (.errorf "%w: mirror %q"
          [.wrapped errUnknownReplicaSet, .text mirror])
      else if mirror = mainReplicaSet then
        .error (.errorf "%w: replica set %q cannot mirror itself"
          [.wrapped errMirrorConfiguration, .text mirror])
      else if (GoMap.get? seenMirrors mirror).isSome then
        .error (.errorf "%w: duplicate mirror %q"
          [.wrapped errMirrorConfiguration, .text mirror])
      else
        checkMirrors names mainReplicaSet (GoMap.set seenMirrors mirror ()) mirrors

/-- The slice `mapped` has one entry for each of the `virtualShardCount` shards. -/
def checkIndexes (virtualShardCount : UInt64) :
    List Bool → List UInt64 → Except (GoError ε) (List Bool)
  | mapped, [] => .ok mapped
  | mapped, virtualShardIndex :: indexes =>
      if virtualShardCount ≤ virtualShardIndex then
        .error (.errorf "%w: %d" [.wrapped errVirtualShardOutOfRange,
          .number virtualShardIndex.toNat])
      else if mapped.getD virtualShardIndex.toNat false then
        .error (.errorf "%w: %d" [.wrapped errVirtualShardAlreadyMapped,
          .number virtualShardIndex.toNat])
      else
        checkIndexes virtualShardCount
          (mapped.set virtualShardIndex.toNat true) indexes

def checkMappings (names : GoMap String Unit) (virtualShardCount : UInt64) :
    List Bool → GoMap String String → List VirtualShardMapping →
      Except (GoError ε) (List Bool)
  | mapped, _, [] => .ok mapped
  | mapped, mirrorConfigurations, mapping :: mappings =>
      if (GoMap.get? names mapping.mainReplicaSet).isNone then
        .error (.errorf "%w: main %q"
          [.wrapped errUnknownReplicaSet, .text mapping.mainReplicaSet])
      else
        match checkMirrors names mapping.mainReplicaSet []
          mapping.mirrorReplicaSets with
        | .error err => .error err
        | .ok () =>
            let configuration := mirrorConfiguration mapping.mirrorReplicaSets
            if (GoMap.get? mirrorConfigurations mapping.mainReplicaSet).any
              (· ≠ configuration) then
              .error (.errorf "%w for %q" [.wrapped errMirrorConfiguration,
                .text mapping.mainReplicaSet])
            else
              match checkIndexes virtualShardCount mapped
                mapping.virtualShardIndexes with
              | .error err => .error err
              | .ok mapped =>
                  checkMappings names virtualShardCount mapped
                    (GoMap.set mirrorConfigurations mapping.mainReplicaSet
                      configuration) mappings

def checkMapped : List (Bool × Nat) → Except (GoError ε) Unit
  | [] => .ok ()
  | (ok, index) :: mapped =>
      if ok then checkMapped mapped
      else
        .error (.errorf "%w: %d"
          [.wrapped errVirtualShardNotMapped, .number index])

variable {π Opener Hasher : Type}

def validateMeshConfig (config : OpenMeshConfig π) (openNode : Option Opener)
    (shardHasher : Option Hasher) : Except (GoError ε) Unit :=
  if config.replicaSets.length = 0 then .error errNoReplicaSets
  else if openNode.isNone then .error errNilNodeOpener
  else if shardHasher.isNone then .error errNilShardHasher
  else if config.virtualShardCount = 0 then .error errNoVirtualShards
  else
    match checkReplicaSets [] config.replicaSets with
    | .error err => .error err
    | .ok names =>
        match checkMappings names config.virtualShardCount
          (List.replicate config.virtualShardCount.toNat false) []
          config.mappings with
        | .error err => .error err
        | .ok mapped => checkMapped mapped.zipIdx

/-! ## Consistent configurations -/

namespace OpenMeshConfig

def names (config : OpenMeshConfig π) : List String :=
  config.replicaSets.map ReplicaSetSpec.name

/-- The virtual shards listed by the mappings, in order. -/
def listed (config : OpenMeshConfig π) : List UInt64 :=
  config.mappings.flatMap VirtualShardMapping.virtualShardIndexes

structure ConsistentUpTo (same : List String → List String → Prop)
    (config : OpenMeshConfig π) : Prop where
  replicaSets : config.replicaSets ≠ []
  virtualShards : 0 < config.virtualShardCount
  nonblank : ∀ spec ∈ config.replicaSets, isBlank spec.name = false
  distinct : config.names.Nodup
  dsns : ∀ spec ∈ config.replicaSets,
    ∀ dsn ∈ spec.primaryDSN :: spec.replicaDSNs, isBlank dsn = false
  registered : ∀ mapping ∈ config.mappings,
    ∀ n ∈ mapping.mainReplicaSet :: mapping.mirrorReplicaSets, n ∈ config.names
  notSelf : ∀ mapping ∈ config.mappings,
    mapping.mainReplicaSet ∉ mapping.mirrorReplicaSets
  mirrorsOnce : ∀ mapping ∈ config.mappings, mapping.mirrorReplicaSets.Nodup
  sameMirrors : ∀ mapping ∈ config.mappings, ∀ mapping' ∈ config.mappings,
    mapping.mainReplicaSet = mapping'.mainReplicaSet →
      same mapping.mirrorReplicaSets mapping'.mirrorReplicaSets
  inRange : ∀ i ∈ config.listed, i < config.virtualShardCount
  once : ∀ i < config.virtualShardCount, config.listed.count i = 1

/-- Mappings of one main replica set list the same mirrors in the same order. -/
abbrev Consistent (config : OpenMeshConfig π) : Prop := ConsistentUpTo Eq config

end OpenMeshConfig

end PgMesh.Topology
