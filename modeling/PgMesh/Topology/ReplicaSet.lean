import PgMesh.Topology.Builder

/-!
# Replica sets

A replica set reads from its targets in turn and writes to its primary, with
the mirrors attached to the writer each time.  Pointers are told apart by the
addresses at which replica sets and round-robin counters were allocated.
-/

namespace PgMesh.Topology

open PgMesh.Foundation

variable {R W T : Type}

/-- The method `WithMirrors` of a writer. -/
class MirrorableWriter (W : Type) where
  withMirrors : W → List W → W

export MirrorableWriter (withMirrors)

structure Node (R W : Type) where
  reader : R
  writer : W
  deriving DecidableEq

inductive NodeRole where
  | primary
  | readReplica
  | transaction
  deriving DecidableEq, Repr

structure NodeTarget (T : Type) where
  value : T
  name : String
  role : NodeRole
  deriving DecidableEq

structure RouteMetadata where
  virtualShardIndex : UInt64
  hasVirtualShard : Bool
  replicaSetName : String
  nodeName : String
  nodeRole : NodeRole
  deriving DecidableEq

structure Route (T : Type) where
  target : T
  metadata : RouteMetadata

def Route.withVirtualShard (r : Route T) (virtualShardIndex : UInt64) : Route T :=
  { r with
    metadata := { r.metadata with
      virtualShardIndex := virtualShardIndex
      hasVirtualShard := true } }

def RouteMetadata.withoutVirtualShard (m : RouteMetadata) : RouteMetadata :=
  { m with virtualShardIndex := 0, hasVirtualShard := false }

/-- `next` is the address of the counter, which copies of a replica set share. -/
structure RoundRobin (T : Type) where
  next : Nat
  items : List T
  nonempty : items ≠ []
  deriving DecidableEq

/-- `nextItem`, where `next.Add(1)` has returned `added`. -/
def RoundRobin.nextItem (r : RoundRobin T) (added : UInt64) : T :=
  let index := added - 1
  r.items.get ⟨index.toNat % r.items.length,
    Nat.mod_lt _ (List.length_pos_iff.mpr r.nonempty)⟩

structure ReplicaSet (R W : Type) where
  address : Nat
  name : String
  primary : Node R W
  readTargets : RoundRobin (NodeTarget R)
  writeMirrors : List W
  deriving DecidableEq

instance : Named (ReplicaSet R W) where
  name := ReplicaSet.name

/-- The read targets of `NewReplicaSet`. -/
def newReadTargets (primary : Node R W) (replicas : List (Node R W)) :
    List (NodeTarget R) :=
  if replicas.length = 0 then [⟨primary.reader, "primary", .primary⟩]
  else
    replicas.zipIdx.map fun (replica, index) =>
      ⟨replica.reader, "replica-" ++ toString index, .readReplica⟩

theorem newReadTargets_ne_nil (primary : Node R W) (replicas : List (Node R W)) :
    newReadTargets primary replicas ≠ [] := by
  unfold newReadTargets
  cases replicas with
  | nil => simp
  | cons replica replicas => simp

/-- `address` is where the replica set and its counter are allocated. -/
def newReplicaSet (address : Nat) (name : String) (primary : Node R W)
    (replicas : List (Node R W)) : ReplicaSet R W where
  address := address
  name := name
  primary := primary
  readTargets := ⟨address, newReadTargets primary replicas,
    newReadTargets_ne_nil primary replicas⟩
  writeMirrors := []

namespace ReplicaSet

/-- `ReadRoute`, where the counter has returned `added`. -/
def readRoute (s : ReplicaSet R W) (added : UInt64) : Route R :=
  let target := s.readTargets.nextItem added
  ⟨target.value, ⟨0, false, s.name, target.name, target.role⟩⟩

def primaryWriter (s : ReplicaSet R W) : W := s.primary.writer

/-- The copy is allocated at `address` and shares the counter. -/
def withWriteMirrors (s : ReplicaSet R W) (address : Nat) (mirrors : List W) :
    ReplicaSet R W :=
  { s with address := address, writeMirrors := s.writeMirrors ++ mirrors }

variable [MirrorableWriter W]

def selectWrite (s : ReplicaSet R W) : NodeTarget W where
  value := withMirrors s.primary.writer s.writeMirrors
  name := "primary"
  role := .primary

def writeRoute (s : ReplicaSet R W) : Route W :=
  let target := s.selectWrite
  ⟨target.value, ⟨0, false, s.name, target.name, target.role⟩⟩

end ReplicaSet

namespace ResolvedShard

def readRoute (s : ResolvedShard (ReplicaSet R W)) (added : UInt64) : Route R :=
  (s.replicaSet.readRoute added).withVirtualShard s.virtualShardIndex

def writeRoute [MirrorableWriter W] (s : ResolvedShard (ReplicaSet R W)) : Route W :=
  s.replicaSet.writeRoute.withVirtualShard s.virtualShardIndex

end ResolvedShard

/-! ## What is selected -/

/-- The node that a read is sent to, with its name and role. -/
inductive ReadsFrom (primary : Node R W) (replicas : List (Node R W)) :
    NodeTarget R → Prop
  | primary : replicas = [] →
      ReadsFrom primary replicas ⟨primary.reader, "primary", .primary⟩
  | replica (index : Nat) (replica : Node R W) : replicas[index]? = some replica →
      ReadsFrom primary replicas
        ⟨replica.reader, "replica-" ++ toString index, .readReplica⟩

theorem readsFrom_of_mem {primary : Node R W} {replicas : List (Node R W)}
    {target : NodeTarget R} (h : target ∈ newReadTargets primary replicas) :
    ReadsFrom primary replicas target := by
  unfold newReadTargets at h
  split at h
  · rename_i hnil
    rw [List.mem_singleton.mp h]
    exact .primary (List.length_eq_zero_iff.mp hnil)
  · obtain ⟨⟨replica, index⟩, hmem, rfl⟩ := List.mem_map.mp h
    exact .replica index replica (List.mem_zipIdx_iff_getElem?.mp hmem)

theorem RoundRobin.nextItem_mem (r : RoundRobin T) (added : UInt64) :
    r.nextItem added ∈ r.items :=
  List.get_mem _ _

end PgMesh.Topology
