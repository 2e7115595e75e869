import PgMesh.Store.GroupedMany
import PgMesh.Store.Grouping
import PgMesh.Topology.BuilderRuns

/-!
# Grouping by the name of a replica set

The grouped methods collect resolved shards under `ReplicaSetName()` and then
go over `ReplicaSets()`.  Names and pointers identify the same replica sets of
a mesh that was built, so no group is lost, visited twice or shared.
-/

namespace PgMesh.Store

open PgMesh.Foundation
open PgMesh.Topology

variable {ρ κ ε γ ι : Type} [Named ρ]

/-! ## The common loop -/

/-- `update` makes the group of an item from the group before it, if there is one. -/
def groupByName (update : Option γ → ResolvedShard ρ × ι → γ) :
    GoMap String γ → List (ResolvedShard ρ × ι) → GoMap String γ
  | groups, [] => groups
  | groups, item :: items =>
      groupByName update
        (GoMap.set groups item.1.replicaSetName
          (update (GoMap.get? groups item.1.replicaSetName) item)) items

/-- The group of some items, in order. -/
def groupOf (update : Option γ → ResolvedShard ρ × ι → γ)
    (items : List (ResolvedShard ρ × ι)) : Option γ :=
  items.foldl (fun group item => some (update group item)) none

theorem get?_groupByName (update : Option γ → ResolvedShard ρ × ι → γ)
    (groups : GoMap String γ) (items : List (ResolvedShard ρ × ι)) (n : String) :
    GoMap.get? (groupByName update groups items) n =
      (items.filter fun item => item.1.replicaSetName = n).foldl
        (fun group item => some (update group item)) (GoMap.get? groups n) := by
  induction items generalizing groups with
  | nil => rfl
  | cons item items ih =>
      simp only [groupByName]
      rw [ih, GoMap.get?_set]
      by_cases h : item.1.replicaSetName = n
      · simp [h]
      · simp [h]

theorem groupByName_keys_nodup (update : Option γ → ResolvedShard ρ × ι → γ)
    {groups : GoMap String γ} (items : List (ResolvedShard ρ × ι))
    (h : (groups.map Prod.fst).Nodup) :
    ((groupByName update groups items).map Prod.fst).Nodup := by
  induction items generalizing groups with
  | nil => exact h
  | cons item items ih => exact ih (GoMap.nodup_keys_set h _ _)

theorem mem_keys_groupByName (update : Option γ → ResolvedShard ρ × ι → γ)
    {groups : GoMap String γ} (items : List (ResolvedShard ρ × ι)) {n : String}
    (h : n ∈ (groupByName update groups items).map Prod.fst) :
    n ∈ groups.map Prod.fst ∨ ∃ item ∈ items, item.1.replicaSetName = n := by
  induction items generalizing groups with
  | nil => exact .inl h
  | cons item items ih =>
      rcases ih h with hkey | ⟨other, hother, hn⟩
      · rw [GoMap.mem_keys_set] at hkey
        rcases hkey with hn | hkey
        · exact .inr ⟨item, List.mem_cons_self, hn.symm⟩
        · exact .inl hkey
      · exact .inr ⟨other, List.mem_cons_of_mem _ hother, hn⟩

/-! ## The loops of the generated methods -/

section Loops

variable {A Item α V K Row : Type} [Inhabited κ]

/-- The body of the loop of a `:copyfrom` method. -/
def addRow (q : CopyQuery Item A α) (group : Option (CopyShardGroup ρ α))
    (item : ResolvedShard ρ × Item) : CopyShardGroup ρ α :=
  { group.getD ⟨item.1, []⟩ with
    args := (group.getD ⟨item.1, []⟩).args ++ [q.row item.2] }

/-- The body of the loop of a grouped `:many` method. -/
def addLookup [GoAny K] (q : ManyQuery Item V K A Row)
    (group : Option (ManyShardGroup ρ V K)) (item : ResolvedShard ρ × Item) :
    ManyShardGroup ρ V K :=
  let shardGroup := group.getD ⟨item.1, [], []⟩
  let lookupKey := q.key (q.lookup item.2)
  if (GoMap.get? shardGroup.requested lookupKey).isSome then shardGroup
  else { shardGroup with
    args := shardGroup.args ++ [q.lookup item.2]
    requested := GoMap.set shardGroup.requested lookupKey () }

variable {s : MeshStore ρ κ A}

/-- The loop over rows, once every item has resolved. -/
theorem groupRows_byName {q : CopyQuery Item A α} {method : String}
    {groups groups' : GroupsByName ρ α} {items : List (Item × Nat)}
    (h : groupRows (ε := ε) s q method groups items = .ok groups') :
    ∃ resolved : List (ResolvedShard ρ × Item),
      resolved.map Prod.snd = items.map Prod.fst ∧
      (∀ x ∈ resolved, s.resolve (ε := ε) (q.route x.2) = .ok x.1) ∧
      groups' = groupByName (addRow q) groups resolved := by
  induction items generalizing groups with
  | nil =>
      cases h
      exact ⟨[], rfl, by simp, rfl⟩
  | cons entry items ih =>
      obtain ⟨item, inputIndex⟩ := entry
      simp only [groupRows] at h
      split at h
      · cases h
      · rename_i shard hshard
        obtain ⟨resolved, hitems, hresolved, hgroups⟩ := ih h
        refine ⟨(shard, item) :: resolved, by simp [hitems], ?_, hgroups⟩
        intro x hx
        rcases List.mem_cons.mp hx with rfl | hx
        · exact hshard
        · exact hresolved x hx

/-- The loop over lookups, once every item has resolved. -/
theorem groupLookups_byName [GoAny K] {q : ManyQuery Item V K A Row}
    {groups groups' : GoMap String (ManyShardGroup ρ V K)}
    {orderedItems orderedItems' : List (ManyOrderItem K)}
    {items : List (Option Item × Nat)}
    (h : groupLookups (ε := ε) s q groups orderedItems items =
      .ok (groups', orderedItems')) :
    ∃ resolved : List (ResolvedShard ρ × Item),
      resolved.map (fun x => some x.2) = items.map Prod.fst ∧
      (∀ x ∈ resolved, s.resolve (ε := ε) (q.route x.2) = .ok x.1) ∧
      groups' = groupByName (addLookup q) groups resolved := by
  induction items generalizing groups orderedItems with
  | nil =>
      cases h
      exact ⟨[], rfl, by simp, rfl⟩
  | cons entry items ih =>
      obtain ⟨item, inputIndex⟩ := entry
      cases item with
      | none => cases h
      | some item =>
          simp only [groupLookups] at h
          split at h
          · cases h
          · split at h
            · cases h
            · rename_i shard hshard
              -- Both branches store the group that `addLookup` makes.
              have hnext : ∃ orderedItems'', groupLookups (ε := ε) s q
                  (GoMap.set groups shard.replicaSetName
                    (addLookup q (GoMap.get? groups shard.replicaSetName)
                      (shard, item))) orderedItems'' items =
                    .ok (groups', orderedItems') := by
                simp only [addLookup]
                split at h
                · rename_i hknown
                  exact ⟨orderedItems, by simpa only [if_pos hknown] using h⟩
                · rename_i hknown
                  exact ⟨_, by simpa only [if_neg hknown] using h⟩
              obtain ⟨orderedItems'', hrest⟩ := hnext
              obtain ⟨resolved, hitems, hresolved, hgroups⟩ := ih hrest
              refine ⟨(shard, item) :: resolved, by simp [hitems], ?_, hgroups⟩
              intro x hx
              rcases List.mem_cons.mp hx with rfl | hx
              · exact hshard
              · exact hresolved x hx

end Loops

/-! ## Visiting the groups -/

section Visit

variable (mesh : Mesh ρ κ)

theorem names_visited (groups : GoMap String γ) (sets : List ρ) :
    (sets.filterMap fun r =>
        (GoMap.get? groups (name r)).map fun group => (name r, group)).map Prod.fst =
      (sets.map name).filter fun n => (GoMap.get? groups n).isSome := by
  induction sets with
  | nil => rfl
  | cons r sets ih =>
      cases hget : GoMap.get? groups (name r) with
      | none => simp [hget, ih]
      | some group => simp [hget, ih]

/-- A map whose keys are names of replica sets is visited once, whatever it holds. -/
theorem populated_perm {groups : GoMap String γ}
    (hkeys : (groups.map Prod.fst).Nodup)
    (hnames : ∀ n ∈ groups.map Prod.fst, n ∈ mesh.replicaSets.map name) :
    (populated mesh groups).Perm (groups.map Prod.snd) := by
  -- The visit is over the entries of the map, read in another order.
  let visited := mesh.replicaSets.filterMap fun r =>
    (GoMap.get? groups (name r)).map fun group => (name r, group)
  have hvisited : populated mesh groups = visited.map Prod.snd := by
    simp only [populated, visited, List.map_filterMap, Option.map_map,
      Function.comp_def, Option.map_id']
  have hnodup : visited.Nodup := by
    apply List.Nodup.of_map Prod.fst
    rw [names_visited]
    exact mesh.names_nodup.filter _
  rw [hvisited]
  apply List.Perm.map
  rw [List.perm_ext_iff_of_nodup hnodup (List.Nodup.of_map _ hkeys)]
  rintro ⟨n, group⟩
  constructor
  · intro hmem
    obtain ⟨r, -, hr⟩ := List.mem_filterMap.mp hmem
    obtain ⟨group', hget, heq⟩ := Option.map_eq_some_iff.mp hr
    cases heq
    exact GoMap.mem_of_get? hget
  · intro hmem
    obtain ⟨r, hr, rfl⟩ := List.mem_map.mp (hnames n (List.mem_map_of_mem hmem))
    apply List.mem_filterMap.mpr
    exact ⟨r, hr, by simp [GoMap.get?_of_mem hkeys hmem]⟩

variable {mesh}

/-- The visit finds, for each replica set in turn, the group of its own items. -/
theorem populated_groupByName [DecidableEq ρ]
    (update : Option γ → ResolvedShard ρ × ι → γ)
    {items : List (ResolvedShard ρ × ι)}
    (h : ∀ x ∈ items, x.1.replicaSet ∈ mesh.replicaSets) :
    populated mesh (groupByName update [] items) =
      mesh.replicaSets.filterMap fun r =>
        groupOf update (items.filter fun x => x.1.replicaSet = r) := by
  unfold populated groupOf
  apply List.filterMap_congr
  intro r hr
  rw [get?_groupByName]
  have hown : (items.filter fun x => x.1.replicaSetName = name r) =
      items.filter fun x => x.1.replicaSet = r := by
    apply List.filter_congr
    intro x hx
    have hiff : x.1.replicaSetName = name r ↔ x.1.replicaSet = r := by
      constructor
      · exact mesh.name_inj _ (h x hx) r hr
      · intro heq
        rw [← heq]
        rfl
    simp only [hiff]
  rw [hown]
  rfl

theorem populated_groupByName_perm (update : Option γ → ResolvedShard ρ × ι → γ)
    {items : List (ResolvedShard ρ × ι)}
    (h : ∀ x ∈ items, x.1.replicaSet ∈ mesh.replicaSets) :
    (populated mesh (groupByName update [] items)).Perm
      ((groupByName update [] items).map Prod.snd) := by
  apply populated_perm mesh (groupByName_keys_nodup update items (by simp))
  intro n hn
  rcases mem_keys_groupByName update items hn with hnil | ⟨x, hx, rfl⟩
  · cases hnil
  · exact List.mem_map_of_mem (h x hx)

end Visit

/-! ## Meshes from a builder -/

/--
What a sequence of builder operations makes of `Build`, and what the loops of
the grouped methods can rely on when it succeeds.
-/
theorem built_mesh_is_represented [DecidableEq ρ] (virtualShardCount : UInt64)
    (telemetryErr : Option (GoError ε)) (ops : List (BuilderOp ρ κ ε)) :
    let start : MeshBuilder ρ κ ε := .newMeshBuilder virtualShardCount telemetryErr
    (∀ first rest err, ops = first ++ rest →
      (start.applyAll first).err = some err →
        (start.applyAll ops).build = .error err ∧
        ∀ i r, (start.applyAll ops).mapVirtualShard i r = start.applyAll ops) ∧
    ((∃ mesh, (start.applyAll ops).build = .ok mesh) ↔
      telemetryErr = none ∧ Faultless virtualShardCount.toNat ops ∧
        MeshDescribed virtualShardCount.toNat ops) ∧
    ∀ mesh, (start.applyAll ops).build = .ok mesh →
      (∀ i r, mesh.virtualShards[UInt64.toNat i]? = some r ↔
        (i, some r) ∈ assignments ops) ∧
      (∀ r, r ∈ mesh.replicaSets ↔ r ∈ mesh.virtualShards) ∧
      mesh.replicaSets.Pairwise (fun r r' =>
        mesh.virtualShards.idxOf r < mesh.virtualShards.idxOf r') ∧
      (mesh.replicaSets.map name).Nodup ∧
      ∀ (γ ι : Type) (update : Option γ → ResolvedShard ρ × ι → γ)
        (items : List (ResolvedShard ρ × ι)),
        (∀ x ∈ items, ∃ key, mesh.resolve (ε := ε) key = .ok x.1) →
        (populated mesh (groupByName update [] items)).Perm
          ((groupByName update [] items).map Prod.snd) ∧
        populated mesh (groupByName update [] items) =
          mesh.replicaSets.filterMap fun r =>
            groupOf update (items.filter fun x => x.1.replicaSet = r) := by
  intro start
  have hops := applyAll_described virtualShardCount telemetryErr ops
  refine ⟨?_, ?_, ?_⟩
  · rintro first rest err rfl hfirst
    have herr : (start.applyAll (first ++ rest)).err = some err := by
      rw [MeshBuilder.applyAll, List.foldl_append]
      exact MeshBuilder.applyAll_err hfirst rest
    constructor
    · simp [MeshBuilder.build, herr]
    · exact MeshBuilder.mapVirtualShard_of_err (by simp [herr])
  · rw [← hops.buildable_iff]
    constructor
    · rintro ⟨mesh, hmesh⟩
      exact (MeshBuilder.build_ok hmesh).1
    · exact MeshBuilder.Buildable.build
  · intro mesh hmesh
    have horder := (MeshBuilder.build_ok hmesh).2
    refine ⟨hops.getElem?_of_build hmesh, mesh.mem_iff, horder, mesh.names_nodup, ?_⟩
    intro γ ι update items hresolved
    have hmem : ∀ x ∈ items, x.1.replicaSet ∈ mesh.replicaSets := by
      intro x hx
      obtain ⟨key, hkey⟩ := hresolved x hx
      exact Mesh.target?_mem (Mesh.target?_of_ok hkey)
    exact ⟨populated_groupByName_perm update hmem, populated_groupByName update hmem⟩

example :
    ∃ mesh, ((MeshBuilder.newMeshBuilder 3 none).applyAll
        ([.withShardHasher (some UInt64.ofNat), .mapVirtualShard 1 (some .west),
          .withLogger, .mapVirtualShard 0 (some .east),
          .mapVirtualShard 2 (some .west)] :
          List (BuilderOp Site Nat Empty))).build = .ok mesh ∧
      mesh.virtualShards = [.east, .west, .west] ∧
      mesh.replicaSets = [.east, .west] :=
  ⟨_, rfl, rfl, rfl⟩

end PgMesh.Store
