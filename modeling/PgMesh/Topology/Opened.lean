import PgMesh.Topology.OpenMesh

/-!
# The mesh that `OpenMesh` opens

The nodes are opened in the order of the options, up to the first failure.
When all of them open, the two validations agree: `Build` accepts what
`validateMeshConfig` accepted, and the mesh routes as its mappings say.
-/

namespace PgMesh.Topology

open PgMesh.Foundation

variable {R W κ ε π : Type}

/-! ## Options -/

def OpenMeshOption.spec? : OpenMeshOption π → Option ReplicaSetSpec
  | .withReplicaSet name primaryDSN replicaDSNs =>
      some ⟨name, primaryDSN, replicaDSNs⟩
  | _ => none

def OpenMeshOption.mapping? : OpenMeshOption π → Option VirtualShardMapping
  | .withVirtualShardMapping mainReplicaSet virtualShardIndexes mirrorReplicaSets =>
      some ⟨virtualShardIndexes, mainReplicaSet, mirrorReplicaSets⟩
  | _ => none

/-- The provider of the last `WithMeterProvider`. -/
def lastMeterProvider (provider : Option π) (options : List (OpenMeshOption π)) :
    Option π :=
  options.foldl (fun provider option =>
    match option with
    | .withMeterProvider provider => provider
    | _ => provider) provider

/-- The configuration that the options describe, in option order. -/
def configOf (virtualShardCount : UInt64)
    (options : List (Option (OpenMeshOption π))) : OpenMeshConfig π where
  replicaSets := (options.filterMap id).filterMap OpenMeshOption.spec?
  virtualShardCount := virtualShardCount
  mappings := (options.filterMap id).filterMap OpenMeshOption.mapping?
  meterProvider := lastMeterProvider none (options.filterMap id)

theorem applyOptions_of_nil (config : OpenMeshConfig π)
    {options : List (Option (OpenMeshOption π) × Nat)}
    (h : none ∈ options.map Prod.fst) :
    ∃ err, applyOptions (ε := ε) config options = .error err := by
  induction options generalizing config with
  | nil => simp at h
  | cons entry options ih =>
      obtain ⟨option, index⟩ := entry
      cases option with
      | none => exact ⟨_, rfl⟩
      | some option => exact ih _ (by simpa using h)

theorem applyOptions_of_set {config : OpenMeshConfig π}
    {options : List (Option (OpenMeshOption π) × Nat)}
    (h : none ∉ options.map Prod.fst) :
    applyOptions (ε := ε) config options =
      .ok (((options.map Prod.fst).filterMap id).foldl OpenMeshOption.apply config) := by
  induction options generalizing config with
  | nil => rfl
  | cons entry options ih =>
      obtain ⟨option, index⟩ := entry
      cases option with
      | none => simp at h
      | some option =>
          simp only [applyOptions]
          rw [ih (by simpa using h)]
          rfl

theorem foldl_apply (config : OpenMeshConfig π) (options : List (OpenMeshOption π)) :
    options.foldl OpenMeshOption.apply config =
      ⟨config.replicaSets ++ options.filterMap OpenMeshOption.spec?,
        config.virtualShardCount,
        config.mappings ++ options.filterMap OpenMeshOption.mapping?,
        lastMeterProvider config.meterProvider options⟩ := by
  induction options generalizing config with
  | nil => simp [lastMeterProvider]
  | cons option options ih =>
      rw [List.foldl_cons, ih]
      cases option <;>
        simp [OpenMeshOption.apply, OpenMeshOption.spec?, OpenMeshOption.mapping?,
          lastMeterProvider, List.filterMap_cons]

theorem applyOptions_eq {virtualShardCount : UInt64}
    {options : List (Option (OpenMeshOption π))} (h : none ∉ options) :
    applyOptions (ε := ε) ⟨[], virtualShardCount, [], none⟩ options.zipIdx =
      .ok (configOf virtualShardCount options) := by
  have hfst : options.zipIdx.map Prod.fst = options := List.zipIdx_map_fst 0 options
  rw [applyOptions_of_set (by rwa [hfst]), hfst, foldl_apply]
  rfl

/-! ## The calls of the opener -/

/-- All the DSNs of a description, the primary first. -/
def ReplicaSetSpec.allDSNs (spec : ReplicaSetSpec) : List String :=
  spec.primaryDSN :: spec.replicaDSNs

/-- The opener is called with these DSNs in turn, up to and including the first failure. -/
inductive OpensInTurn : List String → List (OpenEvent R W ε) → Prop
  | nil : OpensInTurn [] []
  | fails (dsn : String) (dsns : List String) (err : GoError ε) :
      OpensInTurn (dsn :: dsns) [⟨dsn, .error err⟩]
  | opens (dsn : String) (node : Node R W) {dsns : List String}
      {events : List (OpenEvent R W ε)} :
      OpensInTurn dsns events →
        OpensInTurn (dsn :: dsns) (⟨dsn, .ok node⟩ :: events)

/-- A replica set whose nodes have all been opened. -/
structure OpenedSet (R W : Type) where
  spec : ReplicaSetSpec
  primary : Node R W
  replicas : List (Node R W)
  length : replicas.length = spec.replicaDSNs.length

def replicaEvents (dsns : List String) (replicas : List (Node R W)) :
    List (OpenEvent R W ε) :=
  (dsns.zip replicas).map fun (dsn, replica) => ⟨dsn, .ok replica⟩

def OpenedSet.events (o : OpenedSet R W) : List (OpenEvent R W ε) :=
  ⟨o.spec.primaryDSN, .ok o.primary⟩ :: replicaEvents o.spec.replicaDSNs o.replicas

/-- Some call of the opener has failed. -/
def SomeFailed (events : List (OpenEvent R W ε)) : Prop :=
  ∃ event ∈ events, ∃ err, event.answer = .error err

theorem openReplicas_runs {spec : ReplicaSetSpec} {replicas : List (Node R W)}
    {dsns : List String} {events : List (OpenEvent R W ε)}
    {result : Except (GoError ε) (List (Node R W))}
    (h : (openReplicas spec replicas dsns).Runs events (.done result)) :
    (∃ opened, opened.length = dsns.length ∧ events = replicaEvents dsns opened ∧
      result = .ok (replicas ++ opened)) ∨
    (OpensInTurn dsns events ∧ SomeFailed events ∧ ∃ err, result = .error err) := by
  induction dsns generalizing replicas events with
  | nil =>
      obtain ⟨rfl, hresult⟩ := Program.runs_done.mp h
      cases hresult
      exact .inl ⟨[], rfl, rfl, by simp⟩
  | cons dsn dsns ih =>
      obtain ⟨answer, rest, rfl, hrest⟩ := Program.runs_ask_done.mp h
      cases answer with
      | error err =>
          obtain ⟨rfl, hresult⟩ := Program.runs_done.mp hrest
          cases hresult
          exact .inr ⟨.fails dsn dsns err,
            ⟨_, List.mem_cons_self, err, rfl⟩, _, rfl⟩
      | ok replica =>
          rcases ih hrest with ⟨opened, hlength, rfl, hresult⟩ |
            ⟨hcalls, ⟨event, hevent, herr⟩, hresult⟩
          · exact .inl ⟨replica :: opened, by simp [hlength], rfl, by simp [hresult]⟩
          · exact .inr ⟨.opens dsn replica hcalls,
              ⟨event, List.mem_cons_of_mem _ hevent, herr⟩, hresult⟩

theorem OpensInTurn.append {dsns dsns' : List String} {opened : List (Node R W)}
    {events : List (OpenEvent R W ε)} (hlength : opened.length = dsns.length)
    (h : OpensInTurn dsns' events) :
    OpensInTurn (dsns ++ dsns') (replicaEvents dsns opened ++ events) := by
  induction dsns generalizing opened with
  | nil =>
      cases opened with
      | nil => exact h
      | cons node opened => simp at hlength
  | cons dsn dsns ih =>
      cases opened with
      | nil => simp at hlength
      | cons node opened => exact .opens dsn node (ih (by simpa using hlength))

/-- A failure ends the calls, whatever was still to be opened. -/
theorem OpensInTurn.extend {dsns : List String} {events : List (OpenEvent R W ε)}
    (h : OpensInTurn dsns events) (hfailed : SomeFailed events) (dsns' : List String) :
    OpensInTurn (dsns ++ dsns') events := by
  induction h with
  | nil =>
      obtain ⟨event, hevent, -⟩ := hfailed
      cases hevent
  | fails dsn dsns err => exact .fails dsn (dsns ++ dsns') err
  | opens dsn node _ ih =>
      apply OpensInTurn.opens
      apply ih
      obtain ⟨event, hevent, err, herr⟩ := hfailed
      rcases List.mem_cons.mp hevent with rfl | hevent
      · cases herr
      · exact ⟨event, hevent, err, herr⟩

theorem not_someFailed_opened (opened : List (OpenedSet R W)) :
    ¬SomeFailed (opened.flatMap (OpenedSet.events (ε := ε))) := by
  rintro ⟨event, hevent, err, herr⟩
  obtain ⟨o, -, hmem⟩ := List.mem_flatMap.mp hevent
  rcases List.mem_cons.mp hmem with rfl | hmem
  · cases herr
  · obtain ⟨pair, -, rfl⟩ := List.mem_map.mp hmem
    cases herr

/-- The replica sets of the opened nodes, allocated from `address` on. -/
def placeOpened :
    Nat → GoMap String (ReplicaSet R W) → List (OpenedSet R W) →
      GoMap String (ReplicaSet R W)
  | _, replicaSets, [] => replicaSets
  | address, replicaSets, o :: opened =>
      placeOpened (address + 1)
        (GoMap.set replicaSets o.spec.name
          (newReplicaSet address o.spec.name o.primary o.replicas)) opened

theorem openReplicaSets_runs {address : Nat}
    {replicaSets : GoMap String (ReplicaSet R W)} {specs : List ReplicaSetSpec}
    {events : List (OpenEvent R W ε)}
    {result : Except (GoError ε) (GoMap String (ReplicaSet R W))}
    (h : (openReplicaSets address replicaSets specs).Runs events (.done result)) :
    OpensInTurn (specs.flatMap ReplicaSetSpec.allDSNs) events ∧
    ((∃ opened : List (OpenedSet R W), opened.map OpenedSet.spec = specs ∧
      events = opened.flatMap OpenedSet.events ∧
      result = .ok (placeOpened address replicaSets opened)) ∨
    (SomeFailed events ∧ ∃ err, result = .error err)) := by
  induction specs generalizing address replicaSets events with
  | nil =>
      obtain ⟨rfl, hresult⟩ := Program.runs_done.mp h
      cases hresult
      exact ⟨.nil, .inl ⟨[], rfl, rfl, rfl⟩⟩
  | cons spec specs ih =>
      obtain ⟨answer, rest, rfl, hrest⟩ := Program.runs_ask_done.mp h
      cases answer with
      | error err =>
          obtain ⟨rfl, hresult⟩ := Program.runs_done.mp hrest
          cases hresult
          exact ⟨.fails _ _ err, .inr ⟨⟨_, List.mem_cons_self, err, rfl⟩, _, rfl⟩⟩
      | ok primary =>
          obtain ⟨before, replicas, after, rfl, hbefore, hafter⟩ :=
            Program.runs_bind_done.mp hrest
          rcases openReplicas_runs hbefore with ⟨opened, hlength, rfl, rfl⟩ |
            ⟨hcalls, hfailed, err, rfl⟩
          · obtain ⟨hcalls, hcase⟩ := ih hafter
            refine ⟨.opens _ primary (.append hlength hcalls), ?_⟩
            rcases hcase with ⟨openedSets, hspecs, rfl, rfl⟩ |
              ⟨⟨event, hevent, herr⟩, hresult⟩
            · exact .inl ⟨⟨spec, primary, opened, hlength⟩ :: openedSets,
                by simp [hspecs], by simp [OpenedSet.events], rfl⟩
            · exact .inr ⟨⟨event, by simp [hevent], herr⟩, hresult⟩
          · obtain ⟨rfl, hresult⟩ := Program.runs_done.mp hafter
            cases hresult
            rw [List.append_nil]
            refine ⟨.opens _ primary (hcalls.extend hfailed _), .inr ⟨?_, err, rfl⟩⟩
            obtain ⟨event, hevent, herr⟩ := hfailed
            exact ⟨event, List.mem_cons_of_mem _ hevent, herr⟩

/-! ## The replica sets -/

theorem get?_placeOpened_of_not_mem {address : Nat}
    {replicaSets : GoMap String (ReplicaSet R W)} {opened : List (OpenedSet R W)}
    {n : String} (h : n ∉ opened.map fun o => o.spec.name) :
    GoMap.get? (placeOpened address replicaSets opened) n =
      GoMap.get? replicaSets n := by
  induction opened generalizing address replicaSets with
  | nil => rfl
  | cons o opened ih =>
      rw [List.map_cons, List.mem_cons, not_or] at h
      simp only [placeOpened]
      rw [ih h.2, GoMap.get?_set, if_neg (Ne.symm h.1)]

theorem get?_placeOpened {address : Nat}
    {replicaSets : GoMap String (ReplicaSet R W)} {opened : List (OpenedSet R W)}
    (hnodup : (opened.map fun o => o.spec.name).Nodup) {o : OpenedSet R W}
    (ho : o ∈ opened) :
    ∃ address', GoMap.get? (placeOpened address replicaSets opened) o.spec.name =
      some (newReplicaSet address' o.spec.name o.primary o.replicas) := by
  induction opened generalizing address replicaSets with
  | nil => cases ho
  | cons first opened ih =>
      rw [List.map_cons, List.nodup_cons] at hnodup
      simp only [placeOpened]
      rcases List.mem_cons.mp ho with rfl | ho
      · rw [get?_placeOpened_of_not_mem hnodup.1, GoMap.get?_set, if_pos rfl]
        exact ⟨address, rfl⟩
      · exact ih hnodup.2 ho

/-! ## The mirrors -/

/-- What `configured` holds for a main replica set, given its first mapping. -/
def MirrorsOf (replicaSets : GoMap String (ReplicaSet R W))
    (mapping : VirtualShardMapping) (configured : ReplicaSet R W) : Prop :=
  ∃ (main : ReplicaSet R W) (mirrors : List (ReplicaSet R W)) (address : Nat),
    GoMap.get? replicaSets mapping.mainReplicaSet = some main ∧
    mapping.mirrorReplicaSets.map (GoMap.get? replicaSets) = mirrors.map some ∧
    configured =
      main.withWriteMirrors address (mirrors.map ReplicaSet.primaryWriter)

theorem mapM_get?_of_isSome {replicaSets : GoMap String (ReplicaSet R W)}
    {names : List String} (h : ∀ n ∈ names, (GoMap.get? replicaSets n).isSome) :
    ∃ sets, names.mapM (GoMap.get? replicaSets) = some sets ∧
      names.map (GoMap.get? replicaSets) = sets.map some := by
  induction names with
  | nil => exact ⟨[], rfl, rfl⟩
  | cons n names ih =>
      obtain ⟨set, hset⟩ := Option.isSome_iff_exists.mp (h n List.mem_cons_self)
      obtain ⟨sets, hmapM, hmap⟩ :=
        ih fun n hn => h n (List.mem_cons_of_mem _ hn)
      exact ⟨set :: sets, by simp [List.mapM_cons, hset, hmapM], by simp [hset, hmap]⟩

/-- Entries stay once they are made, and a new one is made by the first mapping. -/
theorem configureMirrors_spec {replicaSets : GoMap String (ReplicaSet R W)}
    (address : Nat) (configured : GoMap String (ReplicaSet R W))
    {mappings : List VirtualShardMapping}
    (h : ∀ mapping ∈ mappings,
      ∀ n ∈ mapping.mainReplicaSet :: mapping.mirrorReplicaSets,
        (GoMap.get? replicaSets n).isSome) :
    ∃ configured', configureMirrors replicaSets address configured mappings =
        some configured' ∧
      (∀ n set, GoMap.get? configured n = some set →
        GoMap.get? configured' n = some set) ∧
      ∀ n first, GoMap.get? configured n = none →
        mappings.find? (·.mainReplicaSet = n) = some first →
        ∃ set, GoMap.get? configured' n = some set ∧
          MirrorsOf replicaSets first set := by
  induction mappings generalizing address configured with
  | nil => exact ⟨configured, rfl, fun _ _ hset => hset, by simp⟩
  | cons mapping mappings ih =>
      have hrest : ∀ m ∈ mappings, ∀ n ∈ m.mainReplicaSet :: m.mirrorReplicaSets,
          (GoMap.get? replicaSets n).isSome :=
        fun m hm => h m (List.mem_cons_of_mem _ hm)
      simp only [configureMirrors]
      by_cases hknown : (GoMap.get? configured mapping.mainReplicaSet).isSome
      · rw [if_pos hknown]
        obtain ⟨configured', hok, hkeep, hnew⟩ := ih address configured hrest
        refine ⟨configured', hok, hkeep, ?_⟩
        intro n first hnone hfirst
        have hother : ¬mapping.mainReplicaSet = n := by
          rintro rfl
          simp [hnone] at hknown
        rw [List.find?_cons_of_neg (by simpa using hother)] at hfirst
        exact hnew n first hnone hfirst
      · rw [if_neg hknown]
        have hregistered := h mapping List.mem_cons_self
        obtain ⟨mirrors, hmapM, hmirrors⟩ := mapM_get?_of_isSome
          fun n hn => hregistered n (List.mem_cons_of_mem _ hn)
        obtain ⟨main, hmain⟩ :=
          Option.isSome_iff_exists.mp (hregistered _ List.mem_cons_self)
        simp only [hmapM, hmain]
        obtain ⟨configured', hok, hkeep, hnew⟩ := ih (address + 1)
          (GoMap.set configured mapping.mainReplicaSet
            (main.withWriteMirrors address
              (mirrors.map ReplicaSet.primaryWriter))) hrest
        refine ⟨configured', hok, ?_, ?_⟩
        · intro n set hset
          apply hkeep
          rw [GoMap.get?_set, if_neg]
          · exact hset
          · rintro rfl
            simp [hset] at hknown
        · intro n first hnone hfirst
          by_cases hn : mapping.mainReplicaSet = n
          · subst hn
            rw [List.find?_cons_of_pos (by simp)] at hfirst
            cases hfirst
            refine ⟨_, hkeep _ _ (by rw [GoMap.get?_set, if_pos rfl]), ?_⟩
            exact ⟨main, mirrors, address, hmain, hmirrors, rfl⟩
          · rw [List.find?_cons_of_neg (by simpa using hn)] at hfirst
            apply hnew n first _ hfirst
            rw [GoMap.get?_set, if_neg hn]
            exact hnone

/-! ## The mesh -/

section Assemble

variable {same : List String → List String → Prop} {config : OpenMeshConfig π}
  {opened : List (OpenedSet R W)}

/-- A replica set of the mesh, with the opened sets that it was made from. -/
structure MadeFrom (set : ReplicaSet R W) (main : OpenedSet R W)
    (mirrors : List (OpenedSet R W)) : Prop where
  name : set.name = main.spec.name
  primary : set.primary = main.primary
  readTargets : set.readTargets.items = newReadTargets main.primary main.replicas
  writeMirrors : set.writeMirrors = mirrors.map fun mirror => mirror.primary.writer

/-- The opened sets of some names. -/
def OpenedAs (opened : List (OpenedSet R W)) (names : List String)
    (sets : List (OpenedSet R W)) : Prop :=
  sets.map (fun o => o.spec.name) = names ∧ ∀ o ∈ sets, o ∈ opened

theorem names_opened (hopened : opened.map OpenedSet.spec = config.replicaSets) :
    (opened.map fun o => o.spec.name) = config.names := by
  unfold OpenMeshConfig.names
  rw [← hopened, List.map_map]
  rfl

theorem exists_opened (hopened : opened.map OpenedSet.spec = config.replicaSets)
    {n : String} (hn : n ∈ config.names) : ∃ o ∈ opened, o.spec.name = n := by
  rw [← names_opened hopened] at hn
  exact List.mem_map.mp hn

theorem assignments_builderOps (config : OpenMeshConfig π)
    (providerErr : Option (GoError ε)) (shardHasher : Option (κ → UInt64))
    (configured : GoMap String (ReplicaSet R W)) :
    assignments (builderOps config providerErr shardHasher configured) =
      config.mappings.flatMap fun mapping =>
        mapping.virtualShardIndexes.map fun i =>
          (i, GoMap.get? configured mapping.mainReplicaSet) := by
  have hindexes : ∀ (indexes : List UInt64) (set : Option (ReplicaSet R W)),
      assignments (indexes.map fun i =>
        (.mapVirtualShard i set : BuilderOp (ReplicaSet R W) κ ε)) =
        indexes.map fun i => (i, set) := by
    intro indexes set
    induction indexes with
    | nil => rfl
    | cons i indexes ih => simp [assignments, ih]
  unfold builderOps
  rw [assignments_append]
  simp only [assignments, List.nil_append]
  induction config.mappings with
  | nil => rfl
  | cons mapping mappings ih =>
      rw [List.flatMap_cons, List.flatMap_cons, assignments_append, hindexes, ih]

/-- A registered name leads to the replica set made of its opened nodes. -/
theorem get?_opened (hnodup : config.names.Nodup)
    (hopened : opened.map OpenedSet.spec = config.replicaSets) {n : String}
    (hn : n ∈ config.names) :
    ∃ o ∈ opened, o.spec.name = n ∧ ∃ address,
      GoMap.get? (placeOpened 0 [] opened) n =
        some (newReplicaSet address n o.primary o.replicas) := by
  obtain ⟨o, ho, rfl⟩ := exists_opened hopened hn
  rw [← names_opened hopened] at hnodup
  exact ⟨o, ho, rfl, get?_placeOpened hnodup ho⟩

theorem openedAs_of_get? (hnodup : config.names.Nodup)
    (hopened : opened.map OpenedSet.spec = config.replicaSets) {names : List String}
    (hnames : ∀ n ∈ names, n ∈ config.names) {sets : List (ReplicaSet R W)}
    (hsets : names.map (GoMap.get? (placeOpened 0 [] opened)) = sets.map some) :
    ∃ mirrors, OpenedAs opened names mirrors ∧
      sets.map ReplicaSet.primaryWriter =
        mirrors.map fun mirror => mirror.primary.writer := by
  induction names generalizing sets with
  | nil =>
      cases sets with
      | nil => exact ⟨[], ⟨rfl, by simp⟩, rfl⟩
      | cons set sets => simp at hsets
  | cons n names ih =>
      cases sets with
      | nil => simp at hsets
      | cons set sets =>
          obtain ⟨hset, hrest⟩ := List.cons.inj hsets
          obtain ⟨o, ho, rfl, address, hget⟩ :=
            get?_opened hnodup hopened (hnames n List.mem_cons_self)
          rw [hget] at hset
          cases hset
          obtain ⟨mirrors, ⟨hmirrors, hmem⟩, hwriters⟩ :=
            ih (fun n hn => hnames n (List.mem_cons_of_mem _ hn)) hrest
          refine ⟨o :: mirrors, ⟨by simp [hmirrors], ?_⟩, by
            simp [hwriters, newReplicaSet, ReplicaSet.primaryWriter]⟩
          intro m hm
          rcases List.mem_cons.mp hm with rfl | hm
          · exact ho
          · exact hmem m hm

/-- A configured replica set is made of the nodes opened for it and its mirrors. -/
theorem MirrorsOf.madeFrom (h : config.ConsistentUpTo same)
    (hopened : opened.map OpenedSet.spec = config.replicaSets)
    {first : VirtualShardMapping} (hfirst : first ∈ config.mappings)
    {set : ReplicaSet R W} (hset : MirrorsOf (placeOpened 0 [] opened) first set) :
    ∃ main ∈ opened, ∃ mirrors, main.spec.name = first.mainReplicaSet ∧
      OpenedAs opened first.mirrorReplicaSets mirrors ∧ MadeFrom set main mirrors := by
  obtain ⟨mainSet, mirrorSets, address, hmain, hmirrors, rfl⟩ := hset
  have hregistered := h.registered first hfirst
  obtain ⟨main, hmem, hname, address', hget⟩ :=
    get?_opened h.distinct hopened (hregistered _ List.mem_cons_self)
  rw [hmain] at hget
  cases hget
  obtain ⟨mirrors, hopenedAs, hwriters⟩ := openedAs_of_get? h.distinct hopened
    (fun n hn => hregistered n (List.mem_cons_of_mem _ hn)) hmirrors
  refine ⟨main, hmem, mirrors, hname, hopenedAs, ?_⟩
  exact ⟨hname.symm, rfl, rfl, by
    simp [ReplicaSet.withWriteMirrors, newReplicaSet, hwriters]⟩

theorem exists_first {mappings : List VirtualShardMapping}
    {mapping : VirtualShardMapping} (hmem : mapping ∈ mappings) :
    ∃ first ∈ mappings, first.mainReplicaSet = mapping.mainReplicaSet ∧
      mappings.find? (·.mainReplicaSet = mapping.mainReplicaSet) = some first := by
  have hsome : (mappings.find? (·.mainReplicaSet = mapping.mainReplicaSet)).isSome := by
    rw [List.find?_isSome]
    exact ⟨mapping, hmem, by simp⟩
  obtain ⟨first, hfirst⟩ := Option.isSome_iff_exists.mp hsome
  exact ⟨first, List.mem_of_find?_eq_some hfirst,
    by simpa using List.find?_some hfirst, hfirst⟩

/--
A replica set serves a mapping with the nodes opened for its main replica set,
and mirrors to the primaries that the first mapping of that set lists.
-/
def Serves (config : OpenMeshConfig π) (opened : List (OpenedSet R W))
    (mapping : VirtualShardMapping) (set : ReplicaSet R W) : Prop :=
  ∃ first, config.mappings.find? (·.mainReplicaSet = mapping.mainReplicaSet) =
      some first ∧
    ∃ main ∈ opened, ∃ mirrors, main.spec.name = mapping.mainReplicaSet ∧
      OpenedAs opened first.mirrorReplicaSets mirrors ∧ MadeFrom set main mirrors

theorem Serves.name {mapping : VirtualShardMapping} {set : ReplicaSet R W}
    (h : Serves config opened mapping set) : set.name = mapping.mainReplicaSet := by
  obtain ⟨_, _, main, _, _, hname, _, hmade⟩ := h
  rw [hmade.name, hname]

theorem configureMirrors_serves (h : config.ConsistentUpTo same)
    (hopened : opened.map OpenedSet.spec = config.replicaSets) (address : Nat) :
    ∃ configured, configureMirrors (placeOpened 0 [] opened) address []
        config.mappings = some configured ∧
      ∀ mapping ∈ config.mappings, ∃ set,
        GoMap.get? configured mapping.mainReplicaSet = some set ∧
          Serves config opened mapping set := by
  have hisSome : ∀ mapping ∈ config.mappings,
      ∀ n ∈ mapping.mainReplicaSet :: mapping.mirrorReplicaSets,
        (GoMap.get? (placeOpened 0 [] opened) n).isSome := by
    intro mapping hmapping n hn
    obtain ⟨o, -, -, address, hget⟩ :=
      get?_opened h.distinct hopened (h.registered mapping hmapping n hn)
    simp [hget]
  obtain ⟨configured, hok, -, hnew⟩ := configureMirrors_spec address [] hisSome
  refine ⟨configured, hok, ?_⟩
  intro mapping hmapping
  obtain ⟨first, hmem, hmain, hfirst⟩ := exists_first hmapping
  obtain ⟨set, hget, hmirrors⟩ :=
    hnew mapping.mainReplicaSet first (by simp) hfirst
  obtain ⟨main, hmainMem, mirrors, hname, hopenedAs, hmade⟩ :=
    hmirrors.madeFrom h hopened hmem
  exact ⟨set, hget, first, hfirst, main, hmainMem, mirrors, hname.trans hmain,
    hopenedAs, hmade⟩

section Build

variable {configured : GoMap String (ReplicaSet R W)} {hasher : κ → UInt64}

theorem mem_assignments_builderOps {providerErr : Option (GoError ε)}
    {shardHasher : Option (κ → UInt64)} {i : UInt64} {set : Option (ReplicaSet R W)} :
    (i, set) ∈ assignments (builderOps config providerErr shardHasher configured) ↔
      ∃ mapping ∈ config.mappings, i ∈ mapping.virtualShardIndexes ∧
        GoMap.get? configured mapping.mainReplicaSet = set := by
  rw [assignments_builderOps]
  simp only [List.mem_flatMap, List.mem_map, Prod.mk.injEq]
  constructor
  · rintro ⟨mapping, hmapping, j, hj, rfl, hset⟩
    exact ⟨mapping, hmapping, hj, hset⟩
  · rintro ⟨mapping, hmapping, hi, hset⟩
    exact ⟨mapping, hmapping, i, hi, rfl, hset⟩

theorem lastHasher_builderOps :
    lastHasher (builderOps (ε := ε) config none (some hasher) configured) =
      some hasher := by
  unfold builderOps
  rw [lastHasher_append]
  · rfl
  · intro op hop hasher'
    simp only [List.mem_flatMap, List.mem_map] at hop
    obtain ⟨mapping, -, i, -, rfl⟩ := hop
    simp

/-- The second validation accepts what the first one accepted. -/
theorem builderOps_describe (hasher : κ → UInt64)
    (h : config.ConsistentUpTo same)
    (hset : ∀ mapping ∈ config.mappings, ∃ set,
      GoMap.get? configured mapping.mainReplicaSet = some set ∧
        Serves config opened mapping set) :
    Faultless config.virtualShardCount.toNat
        (builderOps (ε := ε) config none (some hasher) configured) ∧
      MeshDescribed config.virtualShardCount.toNat
        (builderOps (ε := ε) config none (some hasher) configured) := by
  have hlisted : (assignments (builderOps (ε := ε) config none (some hasher)
      configured)).map Prod.fst = config.listed := by
    rw [assignments_builderOps, List.map_flatMap]
    simp only [List.map_map, Function.comp_def, List.map_id']
    rfl
  have hname : ∀ mapping ∈ config.mappings, ∀ set,
      GoMap.get? configured mapping.mainReplicaSet = some set →
        set.name = mapping.mainReplicaSet := by
    intro mapping hmapping set hget
    obtain ⟨set', hget', hserves⟩ := hset mapping hmapping
    rw [hget] at hget'
    cases hget'
    exact hserves.name
  obtain ⟨hnodup, hall⟩ := (OpenMeshConfig.once_iff h.inRange).mp h.once
  constructor
  · refine ⟨?_, ?_, ?_, ?_⟩
    · intro err hmem
      simp [builderOps] at hmem
    · rintro ⟨i, set⟩ hmem
      apply UInt64.lt_iff_toNat_lt.mp
      apply h.inRange
      rw [← hlisted]
      exact List.mem_map_of_mem hmem
    · rintro ⟨i, set⟩ hmem
      obtain ⟨mapping, hmapping, -, hget⟩ := mem_assignments_builderOps.mp hmem
      obtain ⟨set', hget', -⟩ := hset mapping hmapping
      rw [← hget, hget']
      simp
    · rw [hlisted]
      exact hnodup
  · refine ⟨?_, ?_, ?_, ?_, ?_⟩
    · exact UInt64.lt_iff_toNat_lt.mp h.virtualShards
    · simp [lastHasher_builderOps]
    · intro i hi
      have hi64 : (UInt64.ofNat i).toNat = i := by
        apply UInt64.toNat_ofNat_of_lt'
        exact Nat.lt_trans hi config.virtualShardCount.toNat_lt
      have hmem : UInt64.ofNat i ∈ config.listed := by
        apply hall
        rw [UInt64.lt_iff_toNat_lt, hi64]
        exact hi
      obtain ⟨mapping, hmapping, hindex⟩ := List.mem_flatMap.mp hmem
      obtain ⟨set, hget, -⟩ := hset mapping hmapping
      exact ⟨UInt64.ofNat i, set, hi64,
        mem_assignments_builderOps.mpr ⟨mapping, hmapping, hindex, hget⟩⟩
    · intro i set hmem
      obtain ⟨mapping, hmapping, -, hget⟩ := mem_assignments_builderOps.mp hmem
      have hregistered := h.registered mapping hmapping _ List.mem_cons_self
      obtain ⟨spec, hspec, heq⟩ := List.mem_map.mp hregistered
      change isBlank set.name = false
      rw [hname mapping hmapping set hget, ← heq]
      exact h.nonblank spec hspec
    · intro i set i' set' hmem hmem' hsame
      obtain ⟨mapping, hmapping, -, hget⟩ := mem_assignments_builderOps.mp hmem
      obtain ⟨mapping', hmapping', -, hget'⟩ := mem_assignments_builderOps.mp hmem'
      have hmain : mapping.mainReplicaSet = mapping'.mainReplicaSet := by
        rw [← hname mapping hmapping set hget, ← hname mapping' hmapping' set' hget']
        exact hsame
      rw [hmain, hget'] at hget
      exact (Option.some.inj hget).symm

end Build

variable [DecidableEq R] [DecidableEq W]

/-- In a mesh of a consistent configuration each virtual shard has its mapping's set. -/
theorem serves_of_assemble (h : config.ConsistentUpTo same)
    (hopened : opened.map OpenedSet.spec = config.replicaSets)
    {telemetryErr providerErr : Option (GoError ε)} {shardHasher : Option (κ → UInt64)}
    {mesh : Mesh (ReplicaSet R W) κ}
    (hmesh : assemble config telemetryErr providerErr shardHasher
      (placeOpened 0 [] opened) = some (.ok mesh)) :
    ∀ mapping ∈ config.mappings, ∀ i ∈ mapping.virtualShardIndexes,
      ∃ set, mesh.virtualShards[i.toNat]? = some set ∧
        Serves config opened mapping set := by
  obtain ⟨configured, hok, hset⟩ :=
    configureMirrors_serves h hopened config.replicaSets.length
  simp only [assemble, hok, Option.map_some, Option.some.injEq] at hmesh
  intro mapping hmapping i hi
  obtain ⟨set, hget, hserves⟩ := hset mapping hmapping
  refine ⟨set, ?_, hserves⟩
  rw [(applyAll_described config.virtualShardCount telemetryErr
    (builderOps config providerErr shardHasher configured)).getElem?_of_build hmesh]
  exact mem_assignments_builderOps.mpr ⟨mapping, hmapping, hi, hget⟩

theorem exists_serves_of_assemble (h : config.ConsistentUpTo same)
    (hopened : opened.map OpenedSet.spec = config.replicaSets)
    {telemetryErr providerErr : Option (GoError ε)} {shardHasher : Option (κ → UInt64)}
    {mesh : Mesh (ReplicaSet R W) κ}
    (hmesh : assemble config telemetryErr providerErr shardHasher
      (placeOpened 0 [] opened) = some (.ok mesh)) {i : UInt64} {set : ReplicaSet R W}
    (hget : mesh.virtualShards[i.toNat]? = some set) :
    ∃ mapping ∈ config.mappings, i ∈ mapping.virtualShardIndexes ∧
      Serves config opened mapping set := by
  obtain ⟨configured, hok, hset⟩ :=
    configureMirrors_serves h hopened config.replicaSets.length
  simp only [assemble, hok, Option.map_some, Option.some.injEq] at hmesh
  rw [(applyAll_described config.virtualShardCount telemetryErr
    (builderOps config providerErr shardHasher configured)).getElem?_of_build hmesh,
    mem_assignments_builderOps] at hget
  obtain ⟨mapping, hmapping, hi, hconfigured⟩ := hget
  obtain ⟨set', hget', hserves⟩ := hset mapping hmapping
  rw [hconfigured] at hget'
  cases hget'
  exact ⟨mapping, hmapping, hi, hserves⟩

/-- What `Build` makes of a consistent configuration whose nodes are all open. -/
theorem assemble_spec (h : config.ConsistentUpTo same)
    (hopened : opened.map OpenedSet.spec = config.replicaSets) (hasher : κ → UInt64) :
    ∃ mesh, assemble (ε := ε) config none none (some hasher)
        (placeOpened 0 [] opened) = some (.ok mesh) ∧ mesh.hasher = hasher := by
  obtain ⟨configured, hok, hset⟩ :=
    configureMirrors_serves h hopened config.replicaSets.length
  obtain ⟨hfault, hmesh⟩ := builderOps_describe (ε := ε) hasher h hset
  have hops := applyAll_described config.virtualShardCount none
    (builderOps (ε := ε) config none (some hasher) configured)
  obtain ⟨mesh, hbuild⟩ := (hops.buildable_iff.mpr ⟨rfl, hfault, hmesh⟩).build
  refine ⟨mesh, by simp [assemble, hok, hbuild], ?_⟩
  have hhasher := (MeshBuilder.build_eq_ok hbuild).2.1
  rw [hops.hasher, lastHasher_builderOps] at hhasher
  exact (Option.some.inj hhasher).symm

end Assemble

/-! ## Routes -/

/-- A virtual shard that is listed once is listed by one mapping only. -/
theorem exists_unique_mapping {mappings : List VirtualShardMapping} {i : UInt64}
    (h : (mappings.flatMap VirtualShardMapping.virtualShardIndexes).count i = 1) :
    ∃ before mapping after, mappings = before ++ mapping :: after ∧
      i ∈ mapping.virtualShardIndexes ∧
      ∀ other ∈ before ++ after, i ∉ other.virtualShardIndexes := by
  have hmem : i ∈ mappings.flatMap VirtualShardMapping.virtualShardIndexes :=
    List.count_pos_iff.mp (by omega)
  obtain ⟨mapping, hmapping, hi⟩ := List.mem_flatMap.mp hmem
  obtain ⟨before, after, rfl⟩ := List.append_of_mem hmapping
  refine ⟨before, mapping, after, rfl, hi, ?_⟩
  rw [List.flatMap_append, List.flatMap_cons, List.count_append, List.count_append] at h
  have hpos := List.count_pos_iff.mpr hi
  intro other hother hmem
  have hothers : i ∈ (before ++ after).flatMap VirtualShardMapping.virtualShardIndexes :=
    List.mem_flatMap.mpr ⟨other, hother, hmem⟩
  rw [List.flatMap_append] at hothers
  have hpos' := List.count_pos_iff.mpr hothers
  rw [List.count_append] at hpos'
  omega

variable [MirrorableWriter W]

/-- Where a resolved shard reads and writes, and how its routes describe it. -/
structure RoutesTo (shard : ResolvedShard (ReplicaSet R W)) (main : OpenedSet R W)
    (mirrors : List (OpenedSet R W)) : Prop where
  write : shard.writeRoute =
    ⟨withMirrors main.primary.writer (mirrors.map fun mirror => mirror.primary.writer),
      ⟨shard.virtualShardIndex, true, main.spec.name, "primary", .primary⟩⟩
  read : ∀ added, ∃ target, ReadsFrom main.primary main.replicas target ∧
    shard.readRoute added = ⟨target.value,
      ⟨shard.virtualShardIndex, true, main.spec.name, target.name, target.role⟩⟩

theorem MadeFrom.routesTo {set : ReplicaSet R W} {main : OpenedSet R W}
    {mirrors : List (OpenedSet R W)} (h : MadeFrom set main mirrors) (i : UInt64) :
    RoutesTo ⟨i, set⟩ main mirrors := by
  constructor
  · simp [ResolvedShard.writeRoute, ReplicaSet.writeRoute, ReplicaSet.selectWrite,
      Route.withVirtualShard, h.primary, h.writeMirrors, h.name]
  · intro added
    have hmem := RoundRobin.nextItem_mem set.readTargets added
    rw [h.readTargets] at hmem
    refine ⟨_, readsFrom_of_mem hmem, ?_⟩
    simp [ResolvedShard.readRoute, ReplicaSet.readRoute, Route.withVirtualShard, h.name]

/-! ## The whole function -/

variable [DecidableEq R] [DecidableEq W] {virtualShardCount : UInt64}
  {openerIsNil : Bool} {shardHasher : Option (κ → UInt64)}
  {setMeterProvider : Option π → Option (GoError ε)}
  {options : List (Option (OpenMeshOption π))}

/-- The options and the opener pass the checks made before any node is opened. -/
def Admitted (ε : Type) (virtualShardCount : UInt64) (openerIsNil : Bool)
    (shardHasher : Option (κ → UInt64))
    (options : List (Option (OpenMeshOption π))) : Prop :=
  none ∉ options ∧
    validateMeshConfig (ε := ε) (configOf virtualShardCount options)
      (if openerIsNil then none else some ()) shardHasher = .ok ()

theorem validateMeshConfig_ok {config : OpenMeshConfig π} {Opener Hasher : Type}
    {openNode : Option Opener} {shardHasher : Option Hasher}
    (h : validateMeshConfig (ε := ε) config openNode shardHasher = .ok ()) :
    (∃ hasher, shardHasher = some hasher) ∧
      config.ConsistentUpTo SameConfiguration := by
  cases openNode with
  | none =>
      simp only [validateMeshConfig, Option.isNone_none, if_true] at h
      split at h <;> cases h
  | some opener =>
      cases shardHasher with
      | none =>
          simp only [validateMeshConfig, Option.isNone_none, Option.isNone_some,
            Bool.false_eq_true, if_false, if_true] at h
          split at h <;> cases h
      | some hasher =>
          exact ⟨⟨hasher, rfl⟩, (OpenMeshConfig.validate_eq_ok _ _ _).mp h⟩

omit [MirrorableWriter W] in
theorem openMesh_of_refused (setMeterProvider : Option π → Option (GoError ε))
    (h : ¬Admitted ε virtualShardCount openerIsNil shardHasher options) :
    ∃ err, openMesh (R := R) (W := W) virtualShardCount openerIsNil shardHasher
      setMeterProvider options = .done (some (.error err)) := by
  unfold openMesh
  by_cases hnil : none ∈ options
  · have hfst : none ∈ options.zipIdx.map Prod.fst := by
      rwa [List.zipIdx_map_fst]
    obtain ⟨err, herr⟩ := applyOptions_of_nil (ε := ε)
      ⟨[], virtualShardCount, [], none⟩ hfst
    exact ⟨err, by simp [herr]⟩
  · simp only [applyOptions_eq hnil]
    cases hvalid : validateMeshConfig (ε := ε) (configOf virtualShardCount options)
        (if openerIsNil then none else some ()) shardHasher with
    | error err => exact ⟨err, rfl⟩
    | ok u => exact absurd ⟨hnil, hvalid⟩ h

omit [MirrorableWriter W] in
theorem openMesh_of_admitted
    (h : Admitted ε virtualShardCount openerIsNil shardHasher options) :
    openMesh (R := R) (W := W) virtualShardCount openerIsNil shardHasher
        setMeterProvider options =
      (openReplicaSets 0 [] (configOf virtualShardCount options).replicaSets).bind
        (afterOpening (configOf virtualShardCount options) setMeterProvider
          shardHasher) := by
  unfold openMesh
  simp only [applyOptions_eq h.1, h.2]

omit [MirrorableWriter W] in
/-- Every run is refused, or ends at the first node that does not open, or assembles. -/
theorem openMesh_runs {events : List (OpenEvent R W ε)}
    {result : Option (Except (GoError ε) (Mesh (ReplicaSet R W) κ))}
    (h : (openMesh virtualShardCount openerIsNil shardHasher setMeterProvider
      options).Runs events (.done result)) :
    (¬Admitted ε virtualShardCount openerIsNil shardHasher options ∧ events = [] ∧
      ∃ err, result = some (.error err)) ∨
    (Admitted ε virtualShardCount openerIsNil shardHasher options ∧
      OpensInTurn ((configOf virtualShardCount options).replicaSets.flatMap
        ReplicaSetSpec.allDSNs) events ∧
      ((SomeFailed events ∧ ∃ err, result = some (.error err)) ∨
      ∃ opened : List (OpenedSet R W),
        opened.map OpenedSet.spec = (configOf virtualShardCount options).replicaSets ∧
        events = opened.flatMap OpenedSet.events ∧
        result = assemble (configOf virtualShardCount options) (setMeterProvider none)
          (setMeterProvider (configOf virtualShardCount options).meterProvider)
          shardHasher (placeOpened 0 [] opened))) := by
  by_cases hadmitted : Admitted ε virtualShardCount openerIsNil shardHasher options
  · rw [openMesh_of_admitted hadmitted] at h
    obtain ⟨before, sets, after, rfl, hbefore, hafter⟩ := Program.runs_bind_done.mp h
    obtain ⟨hcalls, hcase⟩ := openReplicaSets_runs hbefore
    rcases hcase with ⟨opened, hspecs, rfl, rfl⟩ | ⟨hfailed, err, rfl⟩
    · obtain ⟨rfl, hresult⟩ := Program.runs_done.mp hafter
      rw [List.append_nil]
      exact .inr ⟨hadmitted, hcalls, .inr ⟨opened, hspecs, rfl, Program.done.inj hresult⟩⟩
    · obtain ⟨rfl, hresult⟩ := Program.runs_done.mp hafter
      rw [List.append_nil]
      exact .inr ⟨hadmitted, hcalls, .inl ⟨hfailed, err, Program.done.inj hresult⟩⟩
  · obtain ⟨err, herr⟩ := openMesh_of_refused (R := R) (W := W)
      setMeterProvider hadmitted
    rw [herr] at h
    obtain ⟨rfl, hresult⟩ := Program.runs_done.mp h
    exact .inl ⟨hadmitted, rfl, err, Program.done.inj hresult⟩

omit [MirrorableWriter W] in
theorem openMesh_serves {events : List (OpenEvent R W ε)} {mesh : Mesh (ReplicaSet R W) κ}
    (h : (openMesh virtualShardCount openerIsNil shardHasher setMeterProvider
      options).Runs events (.done (some (.ok mesh)))) :
    ∃ opened : List (OpenedSet R W),
      opened.map OpenedSet.spec = (configOf virtualShardCount options).replicaSets ∧
      events = opened.flatMap OpenedSet.events ∧
      ∀ (i : UInt64) (set : ReplicaSet R W), mesh.virtualShards[i.toNat]? = some set →
        ∃ mapping ∈ (configOf virtualShardCount options).mappings,
          i ∈ mapping.virtualShardIndexes ∧
          Serves (configOf virtualShardCount options) opened mapping set := by
  rcases openMesh_runs h with ⟨_, _, err, hresult⟩ |
    ⟨hadmitted, _, ⟨_, err, hresult⟩ | ⟨opened, hspecs, rfl, hresult⟩⟩
  · cases hresult
  · cases hresult
  · obtain ⟨_, hconsistent⟩ := validateMeshConfig_ok hadmitted.2
    refine ⟨opened, hspecs, rfl, ?_⟩
    intro i set hget
    exact exists_serves_of_assemble hconsistent hspecs hresult.symm hget

/--
Nothing is opened unless the options are admitted.  Then the nodes are opened
in option order up to the first failure, and if all of them open, the mesh
sends each key to the nodes opened for the mapping of its virtual shard.
-/
theorem openMesh_opens_what_it_routes_to {events : List (OpenEvent R W ε)}
    {result : Option (Except (GoError ε) (Mesh (ReplicaSet R W) κ))}
    (h : (openMesh virtualShardCount openerIsNil shardHasher setMeterProvider
      options).Runs events (.done result)) :
    (¬Admitted ε virtualShardCount openerIsNil shardHasher options →
      events = [] ∧ ∃ err, result = some (.error err)) ∧
    (Admitted ε virtualShardCount openerIsNil shardHasher options →
      OpensInTurn ((configOf virtualShardCount options).replicaSets.flatMap
        ReplicaSetSpec.allDSNs) events ∧
      (SomeFailed events → ∃ err, result = some (.error err)) ∧
      (¬SomeFailed events → setMeterProvider none = none →
        setMeterProvider (configOf virtualShardCount options).meterProvider = none →
        ∃ (mesh : Mesh (ReplicaSet R W) κ) (hasher : κ → UInt64)
          (opened : List (OpenedSet R W)),
          result = some (.ok mesh) ∧ shardHasher = some hasher ∧
          opened.map OpenedSet.spec = (configOf virtualShardCount options).replicaSets ∧
          events = opened.flatMap OpenedSet.events ∧
          ∀ key, hasher key < virtualShardCount →
            ∃ before mapping after,
              (configOf virtualShardCount options).mappings =
                before ++ mapping :: after ∧
              hasher key ∈ mapping.virtualShardIndexes ∧
              (∀ other ∈ before ++ after, hasher key ∉ other.virtualShardIndexes) ∧
              ∃ shard main mirrors, mesh.resolve (ε := ε) key = .ok shard ∧
                shard.virtualShardIndex = hasher key ∧ main ∈ opened ∧
                main.spec.name = mapping.mainReplicaSet ∧
                RoutesTo shard main mirrors)) := by
  rcases openMesh_runs h with ⟨hrefused, rfl, err, rfl⟩ |
    ⟨hadmitted, hcalls, ⟨hfailed, err, rfl⟩ | ⟨opened, hspecs, rfl, hresult⟩⟩
  · exact ⟨fun _ => ⟨rfl, err, rfl⟩, fun hadmitted => absurd hadmitted hrefused⟩
  · refine ⟨fun hrefused => absurd hadmitted hrefused, fun _ => ⟨hcalls, ?_, ?_⟩⟩
    · intro _
      exact ⟨err, rfl⟩
    · intro hnone
      exact absurd hfailed hnone
  · refine ⟨fun hrefused => absurd hadmitted hrefused, fun _ => ⟨hcalls, ?_, ?_⟩⟩
    · intro hfailed
      exact absurd hfailed (not_someFailed_opened opened)
    · intro _ htelemetry hprovider
      obtain ⟨⟨hasher, hhasher⟩, hconsistent⟩ := validateMeshConfig_ok hadmitted.2
      obtain ⟨mesh, hmesh, hmeshHasher⟩ :=
        assemble_spec (ε := ε) hconsistent hspecs hasher
      have hserves := serves_of_assemble hconsistent hspecs hmesh
      have hok : result = some (.ok mesh) := by
        rw [hresult, htelemetry, hprovider, hhasher, hmesh]
      refine ⟨mesh, hasher, opened, hok, hhasher, hspecs, rfl, ?_⟩
      intro key hkey
      obtain ⟨before, mapping, after, hmappings, hlists, hothers⟩ :=
        exists_unique_mapping (hconsistent.once _ hkey)
      refine ⟨before, mapping, after, hmappings, hlists, hothers, ?_⟩
      obtain ⟨set, hget, _, _, main, hmain, mirrors, hname, _, hmade⟩ :=
        hserves mapping (by simp [hmappings]) _ hlists
      refine ⟨⟨hasher key, set⟩, main, mirrors, ?_, rfl, hmain, hname, hmade.routesTo _⟩
      simp only [Mesh.resolve, hmeshHasher, hget]

/-! ## Two sites -/

/-- A writer that ignores its mirrors. -/
instance : MirrorableWriter Unit where
  withMirrors writer _ := writer

/-- East has a replica and is mirrored to west. -/
def siteOptions : List (Option (OpenMeshOption Unit)) :=
  [some (.withReplicaSet "east" "e" ["e1"]), some .withLogger,
    some (.withVirtualShardMapping "east" [1, 0] ["west"]),
    some (.withReplicaSet "west" "w" []),
    some (.withVirtualShardMapping "west" [2] [])]

/-- An opener that never fails. -/
def openSite (dsn : String) : Except (GoError Empty) (Node String Unit) :=
  .ok ⟨dsn, ()⟩

theorem openMesh_opens_what_it_routes_to_sites :
    Admitted Empty 3 false (some UInt64.ofNat) siteOptions ∧
      OpensInTurn ["e", "e1", "w"]
        ((openMesh 3 false (some UInt64.ofNat) (fun _ => none) siteOptions).eval
          openSite).1 := by
  have hadmitted : Admitted Empty 3 false (some UInt64.ofNat) siteOptions :=
    ⟨by simp [siteOptions], rfl⟩
  exact ⟨hadmitted, ((openMesh_opens_what_it_routes_to
    (Program.runs_eval openSite _)).2 hadmitted).1⟩

end PgMesh.Topology
