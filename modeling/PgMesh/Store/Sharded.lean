import PgMesh.Foundation.ListUpdate
import PgMesh.Foundation.Text
import PgMesh.Store.Calls
import PgMesh.Topology.Opened

/-!
# The Sharded topology

The generated `Sharded` constructor takes databases, while `OpenMesh` takes
DSNs and opens them.  `buildStore` therefore numbers the databases with DSNs of
its own and hands `OpenMesh` an opener that looks them up again.
-/

namespace PgMesh.Store

open PgMesh.Foundation
open PgMesh.Topology

variable {δ τ ε κ A π : Type}

/-- A configured replica set, where `none` is a nil database. -/
structure ShardDatabase (δ : Type) where
  name : String
  primary : Option δ
  replicas : List (Option δ)

structure ShardMapping where
  mainReplicaSet : String
  virtualShards : List UInt64
  mirrorReplicaSets : List String

structure ShardedOptions (δ : Type) where
  replicaSets : List (ShardDatabase δ)
  mappings : List ShardMapping

inductive ShardedOption (δ : Type) where
  | withReplicaSet (name : String) (primary : Option δ) (replicas : List (Option δ))
  | withVirtualShardMapping (mainReplicaSet : String) (virtualShards : List UInt64)
      (mirrorReplicaSets : List String)

def ShardedOption.apply (options : ShardedOptions δ) :
    ShardedOption δ → ShardedOptions δ
  | .withReplicaSet name primary replicas =>
      { options with
        replicaSets := options.replicaSets ++ [⟨name, primary, replicas⟩] }
  | .withVirtualShardMapping mainReplicaSet virtualShards mirrorReplicaSets =>
      { options with
        mappings := options.mappings ++
          [⟨mainReplicaSet, virtualShards, mirrorReplicaSets⟩] }

structure ShardedTopology (κ A δ ε : Type) where
  virtualShardCount : UInt64
  shardHasher : Option (κ → UInt64)
  resolver : Option (A → κ)
  options : ShardedOptions δ
  err : Option (GoError ε)

/-- The loop over the options, where `none` is a nil option. -/
def configureSharded : ShardedOptions δ → List (Option (ShardedOption δ) × Nat) →
    Except (GoError ε) (ShardedOptions δ)
  | configured, [] => .ok configured
  | _, (none, index) :: _ =>
      .error (.errorf "pgmesh: sharded option %d is nil" [.number index])
  | configured, (some option, _) :: options =>
      configureSharded (option.apply configured) options

/-- The constructor `Sharded`. -/
def sharded (virtualShardCount : UInt64) (shardHasher : Option (κ → UInt64))
    (resolver : Option (A → κ)) (options : List (Option (ShardedOption δ))) :
    ShardedTopology κ A δ ε :=
  match configureSharded ⟨[], []⟩ options.zipIdx with
  | .error err => ⟨0, none, none, ⟨[], []⟩, some err⟩
  | .ok configured => ⟨virtualShardCount, shardHasher, resolver, configured, none⟩

namespace ShardedTopology

def primaryDSN (setIndex : Nat) : String :=
  "pgmesh-internal://" ++ toString setIndex ++ "/primary"

def replicaDSN (setIndex replicaIndex : Nat) : String :=
  "pgmesh-internal://" ++ toString setIndex ++ "/replica/" ++ toString replicaIndex

/-- The loop body over the replicas of a set. -/
def placeReplica (setIndex : Nat) (placed : GoMap String (Option δ) × List String)
    (replica : Option δ × Nat) : GoMap String (Option δ) × List String :=
  let dsn := replicaDSN setIndex replica.2
  (GoMap.set placed.1 dsn replica.1, placed.2 ++ [dsn])

/-- The loop body over the replica sets. -/
def placeSet (placed : GoMap String (Option δ) × List (OpenMeshOption π))
    (set : ShardDatabase δ × Nat) :
    GoMap String (Option δ) × List (OpenMeshOption π) :=
  let nodes := GoMap.set placed.1 (primaryDSN set.2) set.1.primary
  let (nodes, replicaDSNs) :=
    set.1.replicas.zipIdx.foldl (placeReplica set.2) (nodes, [])
  (nodes, placed.2 ++ [.withReplicaSet set.1.name (primaryDSN set.2) replicaDSNs])

def mappingOption (mapping : ShardMapping) : OpenMeshOption π :=
  .withVirtualShardMapping mapping.mainReplicaSet mapping.virtualShards
    mapping.mirrorReplicaSets

def openNode (nodes : GoMap String (Option δ)) (dsn : String) :
    Except (GoError ε) (Node (ReadQueries δ τ) (QueryStore δ τ)) :=
  match GoMap.get? nodes dsn with
  | some (some database) => .ok (newStoreNode database)
  | _ => .error (.errorf "pgmesh: database node %q is nil" [.text dsn])

/-- `buildStore` after `OpenMesh`, whose result is `none` when it panics. -/
def afterOpenMesh (resolver : A → κ)
    (initializeCopyBatchers : Mesh (QueryReplicaSet δ τ) κ → Option (GoError ε)) :
    Option (Except (GoError ε) (Mesh (QueryReplicaSet δ τ) κ)) →
      Option (Except (GoError ε) (MeshStore (QueryReplicaSet δ τ) κ A))
  | none => none
  | some (.error err) => some (.error err)
  | some (.ok mesh) =>
      match initializeCopyBatchers mesh with
      | some err => some (.error err)
      | none => some (.ok ⟨mesh, some resolver⟩)

/-- `initializeCopyBatchers` gives the error of making the copy batchers for a mesh. -/
def buildStore [DecidableEq δ] [DecidableEq τ] (c : ShardedTopology κ A δ ε)
    (meterProvider : Option π) (setMeterProvider : Option π → Option (GoError ε))
    (initializeCopyBatchers : Mesh (QueryReplicaSet δ τ) κ → Option (GoError ε)) :
    Option (Except (GoError ε) (MeshStore (QueryReplicaSet δ τ) κ A)) :=
  match c.err, c.resolver with
  | some err, _ => some (.error err)
  | none, none => some (.error (.errorf "pgmesh: shard resolver is nil" []))
  | none, some resolver =>
      let (nodes, meshOptions) := c.options.replicaSets.zipIdx.foldl placeSet ([], [])
      let meshOptions := meshOptions ++ c.options.mappings.map mappingOption
      let meshOptions := meshOptions ++
        [.withTracerProvider, .withMeterProvider meterProvider, .withLogger]
      afterOpenMesh resolver initializeCopyBatchers
        ((openMesh c.virtualShardCount false c.shardHasher setMeterProvider
          (meshOptions.map some)).eval (openNode nodes)).2

/-! ## The DSNs -/

/-- The place of a database in the configuration. -/
inductive Slot where
  | primary (setIndex : Nat)
  | replica (setIndex replicaIndex : Nat)
  deriving DecidableEq

def Slot.dsn : Slot → String
  | .primary setIndex => primaryDSN setIndex
  | .replica setIndex replicaIndex => replicaDSN setIndex replicaIndex

/-- What a DSN says behind the number of the set. -/
def Slot.path : Slot → String
  | .primary _ => "/primary"
  | .replica _ replicaIndex => "/replica/" ++ toString replicaIndex

def Slot.setIndex : Slot → Nat
  | .primary setIndex => setIndex
  | .replica setIndex _ => setIndex

theorem Slot.dsn_eq (slot : Slot) :
    slot.dsn = "pgmesh-internal://" ++ (toString slot.setIndex ++ slot.path) := by
  cases slot with
  | primary i => exact String.append_assoc ..
  | replica i j =>
      change "pgmesh-internal://" ++ toString i ++ "/replica/" ++ toString j = _
      rw [String.append_assoc, String.append_assoc]
      rfl

theorem Slot.path_eq (slot : Slot) : ∃ rest, slot.path.toList = '/' :: rest := by
  cases slot with
  | primary i =>
      have hprimary : "/primary".toList = '/' :: "primary".toList := by decide
      exact ⟨_, hprimary⟩
  | replica i j =>
      have hreplica : "/replica/".toList = '/' :: "replica/".toList := by decide
      rw [Slot.path, String.toList_append, hreplica]
      exact ⟨_, List.cons_append⟩

theorem Slot.path_inj {slot slot' : Slot} (h : slot.path = slot'.path)
    (hindex : slot.setIndex = slot'.setIndex) : slot = slot' := by
  have hne : ∀ t : String, "/primary" ≠ "/replica/" ++ t := by
    intro t ht
    have hlist := congrArg (fun s => s.toList[1]?) ht
    simp at hlist
  cases slot with
  | primary i =>
      cases slot' with
      | primary i' => exact congrArg Slot.primary hindex
      | replica i' j' => exact absurd h (hne _)
  | replica i j =>
      cases slot' with
      | primary i' => exact absurd h.symm (hne _)
      | replica i' j' =>
          have hj : j = j' := toString_nat_inj.mp ((String.append_right_inj _).mp h)
          rw [hj, show i = i' from hindex]

theorem slash_not_mem_toString (n : Nat) : '/' ∉ (toString n).toList := by
  intro h
  have hdigit := isDigit_of_mem_toString_nat h
  simp at hdigit

theorem Slot.dsn_injective : Function.Injective Slot.dsn := by
  intro slot slot' h
  rw [dsn_eq, dsn_eq, String.append_right_inj] at h
  obtain ⟨rest, hrest⟩ := slot.path_eq
  obtain ⟨rest', hrest'⟩ := slot'.path_eq
  have hlist := congrArg String.toList h
  rw [String.toList_append, String.toList_append, hrest, hrest'] at hlist
  -- The number of the set ends at the first slash.
  obtain ⟨hset, htail⟩ := (append_separator_inj (slash_not_mem_toString _)
    (slash_not_mem_toString _)).mp hlist
  have hpath : slot.path = slot'.path := by
    apply String.toList_injective
    rw [hrest, hrest', htail]
  exact Slot.path_inj hpath (toString_nat_inj.mp (String.toList_injective hset))

/-- The database in a slot, if there is such a slot. -/
def databaseAt (sets : List (ShardDatabase δ)) : Slot → Option (Option δ)
  | .primary i => sets[i]?.map ShardDatabase.primary
  | .replica i j => sets[i]?.bind fun set => set.replicas[j]?

def setSlots (set : ShardDatabase δ) (i : Nat) : List (Slot × Option δ) :=
  (.primary i, set.primary) ::
    set.replicas.zipIdx.map fun (database, j) => (.replica i j, database)

/-- All the slots, in the order in which `buildStore` visits them. -/
def slots (sets : List (ShardDatabase δ)) : List (Slot × Option δ) :=
  sets.zipIdx.flatMap fun (set, i) => setSlots set i

theorem mem_slots {sets : List (ShardDatabase δ)} {slot : Slot} {database : Option δ} :
    (slot, database) ∈ slots sets ↔ databaseAt sets slot = some database := by
  simp only [slots, setSlots, List.mem_flatMap, List.mem_cons, List.mem_map, Prod.exists,
    List.mem_zipIdx_iff_getElem?]
  cases slot with
  | primary i => simp [databaseAt, Option.map_eq_some_iff, eq_comm (b := database)]
  | replica i j => simp [databaseAt, Option.bind_eq_some_iff]

/-- What `buildStore` tells `OpenMesh` about a replica set. -/
def specAt (set : ShardDatabase δ) (i : Nat) : ReplicaSetSpec :=
  ⟨set.name, primaryDSN i, (List.range set.replicas.length).map (replicaDSN i)⟩

/-! ## The map of the nodes -/

/-- The assignments to the map of the nodes. -/
def assigned (slots : List (Slot × Option δ)) : GoMap String (Option δ) :=
  slots.map fun (slot, database) => (slot.dsn, database)

def fill (nodes : GoMap String (Option δ)) (slots : List (Slot × Option δ)) :
    GoMap String (Option δ) :=
  (assigned slots).foldl (fun nodes entry => GoMap.set nodes entry.1 entry.2) nodes

theorem fill_append (nodes : GoMap String (Option δ)) (first second : List (Slot × Option δ)) :
    fill nodes (first ++ second) = fill (fill nodes first) second := by
  simp [fill, assigned]

theorem foldl_placeReplica (i : Nat) (nodes : GoMap String (Option δ))
    (replicaDSNs : List String) (replicas : List (Option δ)) (start : Nat) :
    (replicas.zipIdx start).foldl (placeReplica i) (nodes, replicaDSNs) =
      (fill nodes ((replicas.zipIdx start).map fun (database, j) => (.replica i j, database)),
        replicaDSNs ++ (List.range' start replicas.length).map (replicaDSN i)) := by
  induction replicas generalizing start nodes replicaDSNs with
  | nil => simp [fill, assigned]
  | cons replica replicas ih =>
      rw [List.zipIdx_cons, List.foldl_cons, placeReplica, ih, List.length_cons,
        List.range'_succ, List.map_cons, List.map_cons, List.append_assoc]
      rfl

theorem placeSet_eq (placed : GoMap String (Option δ) × List (OpenMeshOption π))
    (set : ShardDatabase δ) (i : Nat) :
    placeSet placed (set, i) = (fill placed.1 (setSlots set i),
      placed.2 ++ [.withReplicaSet set.name (primaryDSN i) (specAt set i).replicaDSNs]) := by
  simp only [placeSet]
  rw [foldl_placeReplica, List.nil_append, ← List.range_eq_range']
  rfl

theorem foldl_placeSet (placed : GoMap String (Option δ) × List (OpenMeshOption π))
    (sets : List (ShardDatabase δ × Nat)) :
    sets.foldl placeSet placed =
      (fill placed.1 (sets.flatMap fun (set, i) => setSlots set i),
        placed.2 ++ sets.map fun (set, i) =>
          .withReplicaSet set.name (primaryDSN i) (specAt set i).replicaDSNs) := by
  induction sets generalizing placed with
  | nil => simp [fill, assigned]
  | cons set sets ih =>
      rw [List.foldl_cons, placeSet_eq, ih, List.flatMap_cons, fill_append, List.map_cons,
        List.append_assoc]
      rfl

/-- Every slot is found again under its own DSN. -/
theorem get?_fill_dsn {sets : List (ShardDatabase δ)} {slot : Slot} {database : Option δ}
    (h : databaseAt sets slot = some database) :
    GoMap.get? (fill [] (slots sets)) slot.dsn = some database := by
  rw [fill, GoMap.get?_foldl_set, GoMap.get?_nil, Option.or_none]
  apply GoMap.get?_of_unique
  · rw [List.mem_reverse]
    exact List.mem_map.mpr ⟨(slot, database), mem_slots.mpr h, rfl⟩
  · intro database' hmem
    rw [List.mem_reverse] at hmem
    obtain ⟨⟨slot', _⟩, hslot, heq⟩ := List.mem_map.mp hmem
    obtain ⟨hdsn, rfl⟩ := Prod.mk.inj heq
    rw [Slot.dsn_injective hdsn, mem_slots, h] at hslot
    exact (Option.some.inj hslot).symm

/-! ## The opened nodes -/

/-- The options that `buildStore` passes to `OpenMesh`. -/
def meshOptions (options : ShardedOptions δ) (meterProvider : Option π) :
    List (OpenMeshOption π) :=
  options.replicaSets.zipIdx.map (fun (set, i) =>
      .withReplicaSet set.name (primaryDSN i) (specAt set i).replicaDSNs) ++
    options.mappings.map mappingOption ++
    [.withTracerProvider, .withMeterProvider meterProvider, .withLogger]

theorem filterMap_id_map_some {α : Type} (l : List α) : (l.map some).filterMap id = l := by
  simp [List.filterMap_map]

theorem replicaSets_configOf (virtualShardCount : UInt64) (options : ShardedOptions δ)
    (meterProvider : Option π) :
    (configOf virtualShardCount ((meshOptions options meterProvider).map some)).replicaSets =
      options.replicaSets.zipIdx.map fun (set, i) => specAt set i := by
  have hmappings : (options.mappings.map
      (mappingOption : ShardMapping → OpenMeshOption π)).filterMap
        OpenMeshOption.spec? = [] := by
    simp [mappingOption, OpenMeshOption.spec?]
  simp only [configOf, filterMap_id_map_some, meshOptions, List.filterMap_append, hmappings]
  simp [List.filterMap_map, Function.comp_def, OpenMeshOption.spec?, specAt]

theorem mappings_configOf (virtualShardCount : UInt64) (options : ShardedOptions δ)
    (meterProvider : Option π) :
    (configOf virtualShardCount ((meshOptions options meterProvider).map some)).mappings =
      options.mappings.map fun mapping =>
        ⟨mapping.virtualShards, mapping.mainReplicaSet, mapping.mirrorReplicaSets⟩ := by
  simp only [configOf, filterMap_id_map_some, meshOptions, List.filterMap_append]
  simp [List.filterMap_map, Function.comp_def, OpenMeshOption.mapping?, mappingOption]

theorem openNode_eq_ok {nodes : GoMap String (Option δ)} {dsn : String}
    {node : Node (ReadQueries δ τ) (QueryStore δ τ)} :
    openNode (ε := ε) nodes dsn = .ok node ↔
      ∃ database, GoMap.get? nodes dsn = some (some database) ∧
        node = newStoreNode database := by
  unfold openNode
  split
  · rename_i database hget
    simp [hget, eq_comm]
  · rename_i hnone
    constructor
    · intro h
      cases h
    · rintro ⟨database, hget, -⟩
      exact absurd hget (hnone database)

/-- The nodes of a configured set run on its databases, which are all there. -/
structure RunsOn (o : OpenedSet (ReadQueries δ τ) (QueryStore δ τ))
    (set : ShardDatabase δ) : Prop where
  name : o.spec.name = set.name
  primary : set.primary.map newStoreNode = some o.primary
  replicas : set.replicas.map (Option.map newStoreNode) = o.replicas.map some

section Opened

variable {sets : List (ShardDatabase δ)}
  {opened : List (OpenedSet (ReadQueries δ τ) (QueryStore δ τ))}

theorem openNode_dsn {slot : Slot} {database : Option δ}
    {node : Node (ReadQueries δ τ) (QueryStore δ τ)}
    (hslot : databaseAt sets slot = some database)
    (h : openNode (ε := ε) (fill [] (slots sets)) slot.dsn = .ok node) :
    database.map newStoreNode = some node := by
  obtain ⟨database', hget, rfl⟩ := openNode_eq_ok.mp h
  rw [get?_fill_dsn hslot] at hget
  rw [Option.some.inj hget]
  rfl

/-- A set whose nodes were opened by looking up its DSNs. -/
theorem runsOn_of_lookups {i : Nat} {set : ShardDatabase δ} (hset : sets[i]? = some set)
    {o : OpenedSet (ReadQueries δ τ) (QueryStore δ τ)} (hspec : o.spec = specAt set i)
    (hevents : ∀ event ∈ o.events (ε := ε),
      event.answer = openNode (fill [] (slots sets)) event.request) : RunsOn o set where
  name := by rw [hspec]; rfl
  primary := by
    have hanswer := (hevents _ List.mem_cons_self).symm
    have hslot : databaseAt sets (.primary i) = some set.primary := by
      simp [databaseAt, hset]
    rw [hspec] at hanswer
    exact openNode_dsn hslot hanswer
  replicas := by
    have hlength : o.replicas.length = set.replicas.length := by
      rw [o.length, hspec]
      simp [specAt]
    apply List.ext_getElem
    · simp [hlength]
    · intro j hj hj'
      rw [List.length_map] at hj hj'
      have hdsn : o.spec.replicaDSNs[j]? = some (replicaDSN i j) := by
        simp [hspec, specAt, hj]
      have hmem : (⟨replicaDSN i j, .ok o.replicas[j]⟩ :
          OpenEvent (ReadQueries δ τ) (QueryStore δ τ) ε) ∈ o.events := by
        apply List.mem_cons_of_mem
        apply List.mem_map.mpr
        refine ⟨(replicaDSN i j, o.replicas[j]), ?_, rfl⟩
        apply List.mem_of_getElem? (i := j)
        rw [List.getElem?_zip_eq_some]
        exact ⟨hdsn, List.getElem?_eq_getElem hj'⟩
      have hanswer := (hevents _ hmem).symm
      have hslot : databaseAt sets (.replica i j) = some set.replicas[j] := by
        simp [databaseAt, hset, hj]
      simpa using openNode_dsn hslot hanswer

theorem exists_runsOn (hspecs : opened.map OpenedSet.spec =
      sets.zipIdx.map fun (set, i) => specAt set i)
    (hevents : ∀ event ∈ opened.flatMap (OpenedSet.events (ε := ε)),
      event.answer = openNode (fill [] (slots sets)) event.request) :
    List.Forall₂ RunsOn opened sets := by
  have hlength : opened.length = sets.length := by
    have := congrArg List.length hspecs
    simpa using this
  rw [List.forall₂_iff_get]
  refine ⟨hlength, ?_⟩
  intro i ho hs
  have hspec : opened[i].spec = specAt sets[i] i := by
    have := congrArg (fun l => l[i]?) hspecs
    simpa [ho, hs] using this
  apply runsOn_of_lookups (List.getElem?_eq_getElem hs) hspec
  intro event hevent
  exact hevents event (List.mem_flatMap.mpr ⟨opened[i], List.getElem_mem ho, hevent⟩)

end Opened

/-! ## Placement -/

/-- The writer and the readers of a database node. -/
def writerOn (database : δ) : QueryStore δ τ := newQueryStore ⟨.pool database⟩ []

def readerOn (database : δ) : ReadQueries δ τ := ⟨⟨.pool database⟩⟩

/-- A replica set of the store writes to its primary and reads from its replicas. -/
structure PlacedOn (set : QueryReplicaSet δ τ) (config : ShardDatabase δ) : Prop where
  name : set.name = config.name
  writer : some set.primaryWriter = config.primary.map writerOn
  readers : set.readTargets.items.map (fun target => some target.value) =
    (if config.replicas = [] then [config.primary] else config.replicas).map
      (Option.map readerOn)

theorem PlacedOn.of_madeFrom {set : QueryReplicaSet δ τ}
    {main : OpenedSet (ReadQueries δ τ) (QueryStore δ τ)}
    {mirrors : List (OpenedSet (ReadQueries δ τ) (QueryStore δ τ))}
    (hmade : MadeFrom set main mirrors) {config : ShardDatabase δ}
    (hruns : RunsOn main config) : PlacedOn set config where
  name := hmade.name.trans hruns.name
  writer := by
    have hprimary := congrArg (Option.map Node.writer) hruns.primary
    rw [Option.map_map] at hprimary
    rw [ReplicaSet.primaryWriter, hmade.primary]
    exact hprimary.symm
  readers := by
    rw [hmade.readTargets, newReadTargets]
    have hlength : main.replicas.length = config.replicas.length := by
      have := congrArg List.length hruns.replicas
      simpa using this.symm
    by_cases hnil : config.replicas = []
    · have hmain : main.replicas = [] := by simpa [hnil] using hlength
      have hprimary := congrArg (Option.map Node.reader) hruns.primary
      rw [Option.map_map] at hprimary
      simp only [hmain, List.length_nil, if_true, hnil, List.map_singleton]
      exact congrArg (fun r => [r]) hprimary.symm
    · have hmain : ¬main.replicas.length = 0 := by
        rw [hlength]
        simpa using hnil
      have hreaders := congrArg (List.map (Option.map Node.reader)) hruns.replicas
      rw [List.map_map, List.map_map] at hreaders
      rw [if_neg hmain, if_neg hnil, List.map_map]
      calc
        _ = (main.replicas.zipIdx.map Prod.fst).map (fun replica => some replica.reader) := by
          rw [List.map_map]
          rfl
        _ = main.replicas.map (fun replica => some replica.reader) := by
          rw [List.zipIdx_map_fst]
        _ = _ := hreaders.symm.trans (List.map_congr_left fun replica _ => by
          cases replica <;> rfl)

section Served

variable {opened : List (OpenedSet (ReadQueries δ τ) (QueryStore δ τ))}
  {sets : List (ShardDatabase δ)} {config : OpenMeshConfig π}
  {mapping : VirtualShardMapping} {set : QueryReplicaSet δ τ}

theorem Served.placedOn (h : Serves config opened mapping set)
    (hruns : List.Forall₂ RunsOn opened sets) : ∃ config ∈ sets, PlacedOn set config := by
  obtain ⟨_, _, main, hmain, mirrors, _, _, hmade⟩ := h
  obtain ⟨config, hconfig, hrunsOn⟩ := exists_of_mem_left hruns hmain
  exact ⟨config, hconfig, .of_madeFrom hmade hrunsOn⟩

theorem Served.mirrors (h : Serves config opened mapping set)
    (hruns : List.Forall₂ RunsOn opened sets) :
    ∃ first ∈ config.mappings, first.mainReplicaSet = mapping.mainReplicaSet ∧
      ∃ mirrors : List (ShardDatabase δ),
        mirrors.map ShardDatabase.name = first.mirrorReplicaSets ∧
        (∀ mirror ∈ mirrors, mirror ∈ sets) ∧
        set.writeMirrors.map some = mirrors.map fun mirror => mirror.primary.map writerOn := by
  obtain ⟨first, hfirst, main, _, mirrorSets, _, ⟨hnames, hmem⟩, hmade⟩ := h
  refine ⟨first, List.mem_of_find?_eq_some hfirst, by simpa using List.find?_some hfirst, ?_⟩
  have hmirrors : ∀ o ∈ mirrorSets, ∃ config ∈ sets, RunsOn o config :=
    fun o ho => exists_of_mem_left hruns (hmem o ho)
  rw [← hnames, hmade.writeMirrors]
  clear hnames hmem hmade hfirst
  induction mirrorSets with
  | nil => exact ⟨[], rfl, by simp, rfl⟩
  | cons o mirrorSets ih =>
      obtain ⟨config, hconfig, hrunsOn⟩ := hmirrors o List.mem_cons_self
      obtain ⟨mirrors, hnames, hsets, hwriters⟩ :=
        ih fun o' ho' => hmirrors o' (List.mem_cons_of_mem _ ho')
      refine ⟨config :: mirrors, ?_, ?_, ?_⟩
      · rw [List.map_cons, List.map_cons, hnames, hrunsOn.name]
      · intro mirror hmirror
        rcases List.mem_cons.mp hmirror with rfl | hmirror
        · exact hconfig
        · exact hsets mirror hmirror
      · have hprimary := congrArg (Option.map Node.writer) hrunsOn.primary
        rw [Option.map_map] at hprimary
        rw [List.map_cons, List.map_cons, hwriters, List.map_cons]
        exact congrArg (· :: _) hprimary.symm

end Served

/-! ## The whole function -/

theorem RunsOn.not_nil {o : OpenedSet (ReadQueries δ τ) (QueryStore δ τ)}
    {set : ShardDatabase δ} (h : RunsOn o set) : none ∉ set.primary :: set.replicas := by
  intro hnil
  rcases List.mem_cons.mp hnil with hprimary | hreplica
  · have := h.primary
    rw [← hprimary] at this
    cases this
  · have hmem := List.mem_map_of_mem (f := Option.map (newStoreNode (τ := τ))) hreplica
    rw [h.replicas] at hmem
    simp at hmem

theorem afterOpenMesh_eq_ok {resolver : A → κ}
    {initializeCopyBatchers : Mesh (QueryReplicaSet δ τ) κ → Option (GoError ε)}
    {result : Option (Except (GoError ε) (Mesh (QueryReplicaSet δ τ) κ))}
    {store : MeshStore (QueryReplicaSet δ τ) κ A}
    (h : afterOpenMesh resolver initializeCopyBatchers result = some (.ok store)) :
    result = some (.ok store.mesh) := by
  unfold afterOpenMesh at h
  split at h
  · cases h
  · cases h
  · split at h
    · cases h
    · cases h
      rfl

variable [DecidableEq δ] [DecidableEq τ] {meterProvider : Option π}
  {setMeterProvider : Option π → Option (GoError ε)}
  {initializeCopyBatchers : Mesh (QueryReplicaSet δ τ) κ → Option (GoError ε)}

theorem buildStore_eq (c : ShardedTopology κ A δ ε) (herr : c.err = none)
    {resolver : A → κ} (hresolver : c.resolver = some resolver) :
    c.buildStore meterProvider setMeterProvider initializeCopyBatchers =
      afterOpenMesh resolver initializeCopyBatchers
        ((openMesh c.virtualShardCount false c.shardHasher setMeterProvider
          ((meshOptions c.options meterProvider).map some)).eval
            (openNode (fill [] (slots c.options.replicaSets)))).2 := by
  simp only [buildStore, herr, hresolver, foldl_placeSet, List.nil_append]
  rfl

theorem buildStore_of_err {c : ShardedTopology κ A δ ε} {err : GoError ε}
    (h : c.err = some err) :
    c.buildStore meterProvider setMeterProvider initializeCopyBatchers =
      some (.error err) := by
  simp [buildStore, h]

/-- A store that was built has its resolver. -/
theorem buildStore_resolver {c : ShardedTopology κ A δ ε}
    {store : MeshStore (QueryReplicaSet δ τ) κ A}
    (h : c.buildStore meterProvider setMeterProvider initializeCopyBatchers =
      some (.ok store)) : store.resolver.isSome = true := by
  cases herr : c.err with
  | some err =>
      rw [buildStore_of_err herr] at h
      cases h
  | none =>
      cases hresolver : c.resolver with
      | none => simp [buildStore, herr, hresolver] at h
      | some resolver =>
          rw [buildStore_eq c herr hresolver] at h
          unfold afterOpenMesh at h
          split at h
          · cases h
          · cases h
          · split at h
            · cases h
            · cases h
              rfl

variable (meterProvider setMeterProvider initializeCopyBatchers) in
/-- Either an error is returned, or all the nodes were opened on their databases. -/
theorem buildStore_cases (c : ShardedTopology κ A δ ε) :
    (∃ err, c.buildStore meterProvider setMeterProvider initializeCopyBatchers =
      some (.error err)) ∨
    ∃ opened : List (OpenedSet (ReadQueries δ τ) (QueryStore δ τ)),
      List.Forall₂ RunsOn opened c.options.replicaSets ∧
      (c.options.replicaSets.map ShardDatabase.name).Nodup ∧
      ∀ store, c.buildStore meterProvider setMeterProvider initializeCopyBatchers =
        some (.ok store) →
        ∀ (v : UInt64) (set : QueryReplicaSet δ τ),
          store.mesh.virtualShards[v.toNat]? = some set →
          ∃ mapping ∈ (configOf c.virtualShardCount
              ((meshOptions c.options meterProvider).map some)).mappings,
            v ∈ mapping.virtualShardIndexes ∧
            Serves (configOf c.virtualShardCount
              ((meshOptions c.options meterProvider).map some)) opened mapping set := by
  cases herr : c.err with
  | some err => exact .inl ⟨err, buildStore_of_err herr⟩
  | none =>
      cases hresolver : c.resolver with
      | none =>
          have hnil : c.buildStore meterProvider setMeterProvider initializeCopyBatchers =
              some (.error (.errorf "pgmesh: shard resolver is nil" [])) := by
            simp [buildStore, herr, hresolver]
          exact .inl ⟨_, hnil⟩
      | some resolver =>
          have hruns := Program.runs_eval
            (openNode (τ := τ) (ε := ε) (fill [] (slots c.options.replicaSets)))
            (openMesh c.virtualShardCount false c.shardHasher setMeterProvider
              ((meshOptions c.options meterProvider).map some))
          rw [buildStore_eq c herr hresolver]
          rcases openMesh_runs hruns with ⟨_, _, err, hresult⟩ |
            ⟨hadmitted, _, ⟨_, err, hresult⟩ | ⟨opened, hspecs, hevents, hresult⟩⟩
          · exact .inl ⟨err, by rw [hresult]; rfl⟩
          · exact .inl ⟨err, by rw [hresult]; rfl⟩
          · obtain ⟨_, hconsistent⟩ := validateMeshConfig_ok hadmitted.2
            refine .inr ⟨opened, ?_, ?_, ?_⟩
            · rw [replicaSets_configOf] at hspecs
              apply exists_runsOn (ε := ε) hspecs
              intro event hevent
              rw [← hevents] at hevent
              exact Program.answer_eq_of_mem_eval hevent
            · have hnames := hconsistent.distinct
              rw [OpenMeshConfig.names, replicaSets_configOf, List.map_map] at hnames
              rw [← List.zipIdx_map_fst 0 c.options.replicaSets, List.map_map]
              exact hnames
            · intro store hstore v set hget
              have hmesh := afterOpenMesh_eq_ok hstore
              rw [hresult] at hmesh
              exact exists_serves_of_assemble hconsistent hspecs hmesh hget

end ShardedTopology

/-! ## The constructor -/

def ShardedOption.replicaSet? : ShardedOption δ → Option (ShardDatabase δ)
  | .withReplicaSet name primary replicas => some ⟨name, primary, replicas⟩
  | .withVirtualShardMapping _ _ _ => none

def ShardedOption.mapping? : ShardedOption δ → Option ShardMapping
  | .withReplicaSet _ _ _ => none
  | .withVirtualShardMapping mainReplicaSet virtualShards mirrorReplicaSets =>
      some ⟨mainReplicaSet, virtualShards, mirrorReplicaSets⟩

/-- The replica sets and mappings of the options, in option order. -/
def configured (options : List (Option (ShardedOption δ))) : ShardedOptions δ :=
  ⟨(options.filterMap id).filterMap ShardedOption.replicaSet?,
    (options.filterMap id).filterMap ShardedOption.mapping?⟩

theorem configureSharded_cases (start : ShardedOptions δ)
    (options : List (Option (ShardedOption δ) × Nat)) :
    (∃ err, configureSharded (ε := ε) start options = .error err) ∨
    configureSharded (ε := ε) start options =
      .ok ⟨start.replicaSets ++ (configured (options.map Prod.fst)).replicaSets,
        start.mappings ++ (configured (options.map Prod.fst)).mappings⟩ := by
  induction options generalizing start with
  | nil => simp [configureSharded, configured]
  | cons entry options ih =>
      obtain ⟨option, index⟩ := entry
      cases option with
      | none => exact .inl ⟨_, rfl⟩
      | some option =>
          simp only [configureSharded]
          rcases ih (option.apply start) with herr | hok
          · exact .inl herr
          · right
            rw [hok]
            cases option <;> simp [configured, ShardedOption.apply, List.filterMap_cons,
              ShardedOption.replicaSet?, ShardedOption.mapping?]

theorem sharded_cases (virtualShardCount : UInt64) (shardHasher : Option (κ → UInt64))
    (resolver : Option (A → κ)) (options : List (Option (ShardedOption δ))) :
    (∃ err, (sharded (ε := ε) virtualShardCount shardHasher resolver options).err =
      some err) ∨
    sharded (ε := ε) virtualShardCount shardHasher resolver options =
      ⟨virtualShardCount, shardHasher, resolver, configured options, none⟩ := by
  unfold sharded
  rcases configureSharded_cases (ε := ε) ⟨[], []⟩ options.zipIdx with ⟨err, herr⟩ | hok
  · simp [herr]
  · simp [hok, List.zipIdx_map_fst]

open ShardedTopology in
/--
In a store that `Sharded` builds, the replica set of each virtual shard writes
to the primary configured for it and reads from its replicas, and so do its
mirrors.  A nil database makes `buildStore` fail.
-/
theorem sharded_preserves_placement [DecidableEq δ] [DecidableEq τ]
    (virtualShardCount : UInt64) (shardHasher : Option (κ → UInt64))
    (resolver : Option (A → κ)) (options : List (Option (ShardedOption δ)))
    (meterProvider : Option π) (setMeterProvider : Option π → Option (GoError ε))
    (initializeCopyBatchers : Mesh (QueryReplicaSet δ τ) κ → Option (GoError ε)) :
    let sets := (configured options).replicaSets
    let mappings := (configured options).mappings
    let result := (sharded virtualShardCount shardHasher resolver options).buildStore
      meterProvider setMeterProvider initializeCopyBatchers
    (∀ store, result = some (.ok store) →
      (sets.map ShardDatabase.name).Nodup ∧
      ∀ (v : UInt64) (set : QueryReplicaSet δ τ),
        store.mesh.virtualShards[v.toNat]? = some set →
        (∀ (i : Nat) (config : ShardDatabase δ), sets[i]? = some config →
          set.name = config.name → PlacedOn set config) ∧
        ∃ mapping ∈ mappings, v ∈ mapping.virtualShards ∧
          set.name = mapping.mainReplicaSet ∧ set.name ∈ sets.map ShardDatabase.name ∧
          ∃ (first : ShardMapping) (mirrors : List (ShardDatabase δ)), first ∈ mappings ∧
            first.mainReplicaSet = mapping.mainReplicaSet ∧
            mirrors.map ShardDatabase.name = first.mirrorReplicaSets ∧
            (∀ mirror ∈ mirrors, mirror ∈ sets) ∧
            set.writeMirrors.map some =
              mirrors.map fun mirror => mirror.primary.map writerOn) ∧
    ((∃ config ∈ sets, none ∈ config.primary :: config.replicas) →
      ∃ err, result = some (.error err)) ∧
    Function.Injective Slot.dsn := by
  intro sets mappings result
  rcases sharded_cases (ε := ε) virtualShardCount shardHasher resolver options with
    ⟨err, herr⟩ | hc
  · have hresult : result = some (.error err) := buildStore_of_err herr
    refine ⟨fun store hstore => ?_, fun _ => ⟨err, hresult⟩, Slot.dsn_injective⟩
    rw [hresult] at hstore
    cases hstore
  · have hcases := buildStore_cases meterProvider setMeterProvider initializeCopyBatchers
      (sharded virtualShardCount shardHasher resolver options)
    rw [hc] at hcases
    simp only [result, hc]
    rcases hcases with ⟨err, herr⟩ | ⟨opened, hruns, hnodup, hserves⟩
    · refine ⟨fun store hstore => ?_, fun _ => ⟨err, herr⟩, Slot.dsn_injective⟩
      rw [herr] at hstore
      cases hstore
    · refine ⟨?_, ?_, Slot.dsn_injective⟩
      · intro store hstore
        refine ⟨hnodup, ?_⟩
        intro v set hget
        obtain ⟨mapping, hmapping, hv, hserved⟩ := hserves store hstore v set hget
        obtain ⟨config, hconfig, hplaced⟩ := Served.placedOn hserved hruns
        refine ⟨?_, ?_⟩
        · intro i config' hconfig' hname
          have hsame : config = config' := List.inj_on_of_nodup_map hnodup hconfig
            (List.mem_of_getElem? hconfig') (hplaced.name.symm.trans hname)
          rw [← hsame]
          exact hplaced
        · obtain ⟨first, hfirst, hfirstMain, mirrors, hnames, hmirrors, hwriters⟩ :=
            Served.mirrors hserved hruns
          rw [mappings_configOf] at hmapping hfirst
          obtain ⟨mapped, hmapped, rfl⟩ := List.mem_map.mp hmapping
          obtain ⟨listed, hlisted, rfl⟩ := List.mem_map.mp hfirst
          exact ⟨mapped, hmapped, hv, hserved.name,
            List.mem_map.mpr ⟨config, hconfig, hplaced.name.symm⟩,
            listed, mirrors, hlisted, hfirstMain, hnames, hmirrors, hwriters⟩
      · rintro ⟨config, hconfig, hnil⟩
        obtain ⟨o, -, ho⟩ := exists_of_mem_right hruns hconfig
        exact absurd hnil ho.not_nil

/-- East, on databases 0 and 1, is mirrored to west, on database 2. -/
def siteShards : List (Option (ShardedOption Nat)) :=
  [some (.withReplicaSet "east" (some 0) [some 1]),
    some (.withReplicaSet "west" (some 2) []),
    some (.withVirtualShardMapping "east" [0] ["west"])]

/-- The store of a topology, if one is built without panic and error. -/
def built (options : List (Option (ShardedOption Nat))) :
    Option (MeshStore (QueryReplicaSet Nat Empty) Unit Unit) :=
  match (sharded (ε := Empty) 1 (some fun _ => 0) (some id) options).buildStore
    (none : Option Unit) (fun _ => none) (fun _ => none) with
  | some (.ok store) => some store
  | _ => none

example : ((built siteShards).map fun store =>
    store.mesh.virtualShards.map fun set => set.primaryWriter.writeQueries.main.db) =
      some [.pool 0] := by
  decide

end PgMesh.Store
