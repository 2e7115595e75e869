import PgMesh.Topology.Config

/-!
# What `validateMeshConfig` accepts

Each loop of the check accepts exactly the lists that its part of
`ConsistentUpTo` describes.  Mirror lists are compared through their names
joined by NUL, so the check tells two lists apart unless they join to the same
text.
-/

namespace PgMesh.Topology

open PgMesh.Foundation

variable {ε π : Type}

/-! ## Replica sets -/

theorem checkReplicas_eq_ok (spec : ReplicaSetSpec)
    (replicas : List (String × Nat)) :
    checkReplicas (ε := ε) spec replicas = .ok () ↔
      ∀ dsn ∈ replicas.map Prod.fst, isBlank dsn = false := by
  induction replicas with
  | nil => simp [checkReplicas]
  | cons replica replicas ih =>
      obtain ⟨dsn, index⟩ := replica
      by_cases hblank : isBlank dsn
      · simp [checkReplicas, hblank]
      · simp only [checkReplicas, if_neg hblank, ih]
        simp [hblank]

/-- A description of one replica set that passes its checks. -/
structure SpecOk (spec : ReplicaSetSpec) : Prop where
  name : isBlank spec.name = false
  dsns : ∀ dsn ∈ spec.primaryDSN :: spec.replicaDSNs, isBlank dsn = false

/-- One iteration: the name is new and nothing is blank. -/
theorem checkReplicaSets_cons {names names' : GoMap String Unit}
    {spec : ReplicaSetSpec} {specs : List ReplicaSetSpec} :
    checkReplicaSets (ε := ε) names (spec :: specs) = .ok names' ↔
      SpecOk spec ∧ GoMap.get? names spec.name = none ∧
        checkReplicaSets (ε := ε) (GoMap.set names spec.name ()) specs =
          .ok names' := by
  have hreplicas := checkReplicas_eq_ok (ε := ε) spec spec.replicaDSNs.zipIdx
  rw [List.zipIdx_map_fst] at hreplicas
  simp only [checkReplicaSets]
  by_cases hname : isBlank spec.name
  · simp only [if_pos hname]
    constructor
    · intro h
      cases h
    · intro h
      simp [h.1.name] at hname
  · rw [if_neg hname]
    cases hget : GoMap.get? names spec.name with
    | some u => simp
    | none =>
        by_cases hprimary : isBlank spec.primaryDSN
        · simp only [Option.isSome_none, Bool.false_eq_true, if_false, if_pos hprimary]
          constructor
          · intro h
            cases h
          · intro h
            simp [h.1.dsns spec.primaryDSN List.mem_cons_self] at hprimary
        · simp only [Option.isSome_none, Bool.false_eq_true, if_false, if_neg hprimary]
          cases hcheck : checkReplicas (ε := ε) spec spec.replicaDSNs.zipIdx with
          | error err =>
              constructor
              · intro h
                cases h
              · intro h
                have hok := hreplicas.mpr fun dsn hdsn =>
                  h.1.dsns dsn (List.mem_cons_of_mem _ hdsn)
                rw [hcheck] at hok
                cases hok
          | ok u =>
              have hspec : SpecOk spec := by
                refine ⟨by simpa using hname, ?_⟩
                intro dsn hdsn
                rcases List.mem_cons.mp hdsn with rfl | hdsn
                · simpa using hprimary
                · exact hreplicas.mp hcheck dsn hdsn
              simp [hspec]

theorem checkReplicaSets_exists {names : GoMap String Unit}
    {specs : List ReplicaSetSpec} :
    (∃ names', checkReplicaSets (ε := ε) names specs = .ok names') ↔
      (∀ spec ∈ specs, SpecOk spec) ∧ (specs.map ReplicaSetSpec.name).Nodup ∧
        ∀ n ∈ specs.map ReplicaSetSpec.name, GoMap.get? names n = none := by
  induction specs generalizing names with
  | nil => simp [checkReplicaSets]
  | cons spec specs ih =>
      simp only [checkReplicaSets_cons, exists_and_left, ih]
      constructor
      · rintro ⟨hspec, hnew, hspecs, hnodup, hfresh⟩
        obtain ⟨hnodup', hfresh'⟩ :=
          GoMap.nodup_cons_of_missing hnew hnodup hfresh
        refine ⟨?_, by simpa using hnodup', by simpa using hfresh'⟩
        intro other hother
        rcases List.mem_cons.mp hother with rfl | hother
        · exact hspec
        · exact hspecs other hother
      · rintro ⟨hspecs, hnodup, hfresh⟩
        rw [List.map_cons, List.nodup_cons] at hnodup
        refine ⟨hspecs spec List.mem_cons_self, hfresh _ (by simp),
          fun other hother => hspecs other (List.mem_cons_of_mem _ hother),
          hnodup.2, ?_⟩
        intro n hn
        rw [GoMap.get?_set, if_neg, hfresh n (by simp [hn])]
        rintro rfl
        exact hnodup.1 hn

theorem checkReplicaSets_names {names names' : GoMap String Unit}
    {specs : List ReplicaSetSpec}
    (h : checkReplicaSets (ε := ε) names specs = .ok names') (n : String) :
    (GoMap.get? names' n).isSome ↔
      (GoMap.get? names n).isSome ∨ n ∈ specs.map ReplicaSetSpec.name := by
  induction specs generalizing names with
  | nil =>
      cases h
      simp
  | cons spec specs ih =>
      obtain ⟨-, -, hrest⟩ := checkReplicaSets_cons.mp h
      rw [ih hrest, GoMap.get?_set]
      by_cases hn : spec.name = n
      · simp [hn]
      · simp [hn, Ne.symm hn]

/-! ## Mirrors -/

theorem checkMirrors_eq_ok (names seenMirrors : GoMap String Unit)
    (mainReplicaSet : String) (mirrors : List String) :
    checkMirrors (ε := ε) names mainReplicaSet seenMirrors mirrors = .ok () ↔
      (∀ mirror ∈ mirrors, (GoMap.get? names mirror).isSome) ∧
      mainReplicaSet ∉ mirrors ∧ mirrors.Nodup ∧
      ∀ mirror ∈ mirrors, GoMap.get? seenMirrors mirror = none := by
  induction mirrors generalizing seenMirrors with
  | nil => simp [checkMirrors]
  | cons mirror mirrors ih =>
      simp only [checkMirrors]
      cases hknown : GoMap.get? names mirror with
      | none => simp [hknown]
      | some u =>
          by_cases hself : mirror = mainReplicaSet
          · simp [hself]
          · cases hseen : GoMap.get? seenMirrors mirror with
            | some u => simp [hself, hseen]
            | none =>
                simp only [Option.isNone_some, Bool.false_eq_true, if_false,
                  if_neg hself, Option.isSome_none, ih]
                constructor
                · rintro ⟨hnames, hmain, hnodup, hfresh⟩
                  obtain ⟨hnodup', hfresh'⟩ :=
                    GoMap.nodup_cons_of_missing hseen hnodup hfresh
                  refine ⟨by simpa [hknown] using hnames, ?_, hnodup', hfresh'⟩
                  simp [Ne.symm hself, hmain]
                · rintro ⟨hnames, hmain, hnodup, hfresh⟩
                  rw [List.nodup_cons] at hnodup
                  simp only [List.mem_cons, not_or] at hmain
                  refine ⟨fun n hn => hnames n (List.mem_cons_of_mem _ hn),
                    hmain.2, hnodup.2, ?_⟩
                  intro n hn
                  rw [GoMap.get?_set, if_neg,
                    hfresh n (List.mem_cons_of_mem _ hn)]
                  rintro rfl
                  exact hnodup.1 hn

/-! ## Virtual shards -/

/-- The slice `mapped` marks exactly the virtual shards listed so far. -/
structure Marks (virtualShardCount : UInt64) (mapped : List Bool)
    (listed : List UInt64) : Prop where
  length : mapped.length = virtualShardCount.toNat
  marked : ∀ i < virtualShardCount, mapped.getD i.toNat false = true ↔ i ∈ listed

theorem Marks.none (virtualShardCount : UInt64) :
    Marks virtualShardCount (List.replicate virtualShardCount.toNat false) [] where
  length := by simp
  marked := by
    intro i hi
    have hlt := UInt64.lt_iff_toNat_lt.mp hi
    simp [List.getD_eq_getElem?_getD, hlt]

theorem Marks.set {virtualShardCount : UInt64} {mapped : List Bool}
    {listed : List UInt64} (h : Marks virtualShardCount mapped listed) {i : UInt64}
    (hi : i < virtualShardCount) :
    Marks virtualShardCount (mapped.set i.toNat true) (listed ++ [i]) where
  length := by simp [h.length]
  marked := by
    intro j hj
    have hlength : i.toNat < mapped.length := by
      rw [h.length]
      exact UInt64.lt_iff_toNat_lt.mp hi
    have hold := h.marked j hj
    rw [List.getD_eq_getElem?_getD] at hold ⊢
    rw [List.getElem?_set, List.mem_append, List.mem_singleton]
    by_cases hij : i.toNat = j.toNat
    · rw [hij] at hlength
      simp [hlength, UInt64.toNat_inj.mp hij]
    · have hne : j ≠ i := by
        rintro rfl
        exact hij rfl
      rw [if_neg hij, hold]
      simp [hne]

theorem checkIndexes_cons {virtualShardCount : UInt64} {mapped mapped' : List Bool}
    {listed : List UInt64} (h : Marks virtualShardCount mapped listed) {i : UInt64}
    {indexes : List UInt64} :
    checkIndexes (ε := ε) virtualShardCount mapped (i :: indexes) = .ok mapped' ↔
      i < virtualShardCount ∧ i ∉ listed ∧
        checkIndexes (ε := ε) virtualShardCount (mapped.set i.toNat true) indexes =
          .ok mapped' := by
  simp only [checkIndexes]
  by_cases hi : i < virtualShardCount
  · have hmarked := h.marked i hi
    rw [if_neg (UInt64.not_le.mpr hi)]
    by_cases hlisted : i ∈ listed
    · rw [if_pos (hmarked.mpr hlisted)]
      simp [hlisted]
    · have hfree : ¬mapped.getD i.toNat false = true := fun hm => hlisted (hmarked.mp hm)
      rw [if_neg hfree]
      simp [hi, hlisted]
  · simp [UInt64.not_lt.mp hi, hi]

theorem checkIndexes_exists {virtualShardCount : UInt64} {mapped : List Bool}
    {listed : List UInt64} (h : Marks virtualShardCount mapped listed)
    {indexes : List UInt64} :
    (∃ mapped', checkIndexes (ε := ε) virtualShardCount mapped indexes =
        .ok mapped') ↔
      (∀ i ∈ indexes, i < virtualShardCount) ∧ (∀ i ∈ indexes, i ∉ listed) ∧
        indexes.Nodup := by
  induction indexes generalizing mapped listed with
  | nil => simp [checkIndexes]
  | cons i indexes ih =>
      simp only [checkIndexes_cons h, exists_and_left, List.forall_mem_cons,
        List.nodup_cons]
      constructor
      · rintro ⟨hi, hnew, hrest⟩
        obtain ⟨hrange, hfresh, hnodup⟩ := (ih (h.set hi)).mp hrest
        refine ⟨⟨hi, hrange⟩, ⟨hnew, ?_⟩, ?_, hnodup⟩
        · intro j hj hlisted
          exact hfresh j hj (List.mem_append_left _ hlisted)
        · intro hmem
          exact hfresh i hmem (by simp)
      · rintro ⟨⟨hi, hrange⟩, ⟨hnew, hfresh⟩, hnot, hnodup⟩
        refine ⟨hi, hnew, (ih (h.set hi)).mpr ⟨hrange, ?_, hnodup⟩⟩
        intro j hj hlisted
        rcases List.mem_append.mp hlisted with hlisted | hlast
        · exact hfresh j hj hlisted
        · rw [List.mem_singleton.mp hlast] at hj
          exact hnot hj

theorem checkIndexes_marks {virtualShardCount : UInt64} {mapped mapped' : List Bool}
    {listed : List UInt64} (h : Marks virtualShardCount mapped listed)
    {indexes : List UInt64}
    (hok : checkIndexes (ε := ε) virtualShardCount mapped indexes = .ok mapped') :
    Marks virtualShardCount mapped' (listed ++ indexes) := by
  induction indexes generalizing mapped listed with
  | nil =>
      cases hok
      simpa using h
  | cons i indexes ih =>
      obtain ⟨hi, -, hrest⟩ := (checkIndexes_cons h).mp hok
      simpa [List.append_assoc] using ih (h.set hi) hrest

theorem checkMapped_eq_ok {mapped : List (Bool × Nat)} :
    checkMapped (ε := ε) mapped = .ok () ↔ ∀ ok ∈ mapped.map Prod.fst, ok = true := by
  induction mapped with
  | nil => simp [checkMapped]
  | cons entry mapped ih =>
      obtain ⟨ok, index⟩ := entry
      cases ok with
      | true => simpa [checkMapped] using ih
      | false => simp [checkMapped]

theorem Marks.all_iff {virtualShardCount : UInt64} {mapped : List Bool}
    {listed : List UInt64} (h : Marks virtualShardCount mapped listed) :
    (∀ ok ∈ mapped, ok = true) ↔ ∀ i < virtualShardCount, i ∈ listed := by
  constructor
  · intro hall i hi
    have hlt : i.toNat < mapped.length := by
      rw [h.length]
      exact UInt64.lt_iff_toNat_lt.mp hi
    rw [← h.marked i hi, List.getD_eq_getElem?_getD, List.getElem?_eq_getElem hlt]
    exact hall _ (List.getElem_mem hlt)
  · intro hall ok hok
    obtain ⟨n, hn, rfl⟩ := List.mem_iff_getElem.mp hok
    have hlt : n < virtualShardCount.toNat := h.length ▸ hn
    have hn64 : (UInt64.ofNat n).toNat = n := by
      apply UInt64.toNat_ofNat_of_lt'
      exact Nat.lt_trans hlt virtualShardCount.toNat_lt
    have hi : UInt64.ofNat n < virtualShardCount := by
      rw [UInt64.lt_iff_toNat_lt, hn64]
      exact hlt
    have hmarked := (h.marked _ hi).mpr (hall _ hi)
    rw [hn64, List.getD_eq_getElem?_getD, List.getElem?_eq_getElem hn] at hmarked
    exact hmarked

/-! ## Mappings -/

/-- A mapping that passes the checks that do not depend on other mappings. -/
structure MappingOk (names : GoMap String Unit) (mapping : VirtualShardMapping) :
    Prop where
  registered : ∀ n ∈ mapping.mainReplicaSet :: mapping.mirrorReplicaSets,
    (GoMap.get? names n).isSome
  notSelf : mapping.mainReplicaSet ∉ mapping.mirrorReplicaSets
  mirrorsOnce : mapping.mirrorReplicaSets.Nodup

/-- One iteration: the mapping agrees with the mirror configuration kept for its main set. -/
theorem checkMappings_cons {names : GoMap String Unit} {virtualShardCount : UInt64}
    {mapped result : List Bool} {configurations : GoMap String String}
    {mapping : VirtualShardMapping} {mappings : List VirtualShardMapping} :
    checkMappings (ε := ε) names virtualShardCount mapped configurations
        (mapping :: mappings) = .ok result ↔
      MappingOk names mapping ∧
      (∀ c, GoMap.get? configurations mapping.mainReplicaSet = some c →
        c = mirrorConfiguration mapping.mirrorReplicaSets) ∧
      ∃ mapped', checkIndexes (ε := ε) virtualShardCount mapped
          mapping.virtualShardIndexes = .ok mapped' ∧
        checkMappings (ε := ε) names virtualShardCount mapped'
          (GoMap.set configurations mapping.mainReplicaSet
            (mirrorConfiguration mapping.mirrorReplicaSets)) mappings = .ok result := by
  have hmirrors := checkMirrors_eq_ok (ε := ε) names [] mapping.mainReplicaSet
    mapping.mirrorReplicaSets
  simp only [checkMappings]
  constructor
  · intro h
    split at h
    · cases h
    · rename_i hmain
      split at h
      · cases h
      · rename_i hcheck
        split at h
        · cases h
        · rename_i hsame
          split at h
          · cases h
          · rename_i mapped' hindexes
            obtain ⟨hregistered, hself, honce, -⟩ := hmirrors.mp hcheck
            refine ⟨⟨?_, hself, honce⟩, ?_, mapped', hindexes, h⟩
            · intro n hn
              rcases List.mem_cons.mp hn with rfl | hn
              · simpa [Option.isSome_iff_ne_none] using hmain
              · exact hregistered n hn
            · intro c hc
              simpa [hc] using hsame
  · rintro ⟨hok, hsame, mapped', hindexes, hrest⟩
    have hmain : ¬(GoMap.get? names mapping.mainReplicaSet).isNone = true := by
      have hregistered := hok.registered _ List.mem_cons_self
      simpa [Option.isSome_iff_ne_none] using hregistered
    have hcheck := hmirrors.mpr
      ⟨fun n hn => hok.registered n (List.mem_cons_of_mem _ hn), hok.notSelf,
        hok.mirrorsOnce, by simp⟩
    have hagree : ¬((GoMap.get? configurations mapping.mainReplicaSet).any
        (· ≠ mirrorConfiguration mapping.mirrorReplicaSets)) = true := by
      cases hget : GoMap.get? configurations mapping.mainReplicaSet with
      | none => simp
      | some c => simp [hsame c hget]
    rw [if_neg hmain, hcheck]
    simp only [if_neg hagree, hindexes]
    exact hrest

/-- The mappings agree with the configurations kept so far and with each other. -/
structure MirrorsAgree (configurations : GoMap String String)
    (mappings : List VirtualShardMapping) : Prop where
  kept : ∀ mapping ∈ mappings, ∀ c,
    GoMap.get? configurations mapping.mainReplicaSet = some c →
      c = mirrorConfiguration mapping.mirrorReplicaSets
  agree : ∀ mapping ∈ mappings, ∀ mapping' ∈ mappings,
    mapping.mainReplicaSet = mapping'.mainReplicaSet →
      mirrorConfiguration mapping.mirrorReplicaSets =
        mirrorConfiguration mapping'.mirrorReplicaSets

theorem mirrorsAgree_cons {configurations : GoMap String String}
    {mapping : VirtualShardMapping} {mappings : List VirtualShardMapping} :
    MirrorsAgree configurations (mapping :: mappings) ↔
      (∀ c, GoMap.get? configurations mapping.mainReplicaSet = some c →
        c = mirrorConfiguration mapping.mirrorReplicaSets) ∧
      MirrorsAgree (GoMap.set configurations mapping.mainReplicaSet
        (mirrorConfiguration mapping.mirrorReplicaSets)) mappings := by
  constructor
  · intro h
    refine ⟨h.kept mapping List.mem_cons_self, ?_, ?_⟩
    · intro other hother c hc
      rw [GoMap.get?_set] at hc
      split at hc
      · rename_i hmain
        cases hc
        exact h.agree mapping List.mem_cons_self other
          (List.mem_cons_of_mem _ hother) hmain
      · exact h.kept other (List.mem_cons_of_mem _ hother) c hc
    · intro m hm m' hm'
      exact h.agree m (List.mem_cons_of_mem _ hm) m' (List.mem_cons_of_mem _ hm')
  · rintro ⟨hhead, htail⟩
    have hwith : ∀ other ∈ mappings,
        mapping.mainReplicaSet = other.mainReplicaSet →
          mirrorConfiguration mapping.mirrorReplicaSets =
            mirrorConfiguration other.mirrorReplicaSets := by
      intro other hother hmain
      apply htail.kept other hother
      rw [GoMap.get?_set, if_pos hmain]
    constructor
    · intro other hother c hc
      rcases List.mem_cons.mp hother with rfl | hother
      · exact hhead c hc
      · by_cases hmain : mapping.mainReplicaSet = other.mainReplicaSet
        · rw [← hmain] at hc
          rw [hhead c hc, hwith other hother hmain]
        · apply htail.kept other hother
          rw [GoMap.get?_set, if_neg hmain]
          exact hc
    · intro m hm m' hm' hmain
      rcases List.mem_cons.mp hm with rfl | hrest
      · rcases List.mem_cons.mp hm' with rfl | hrest'
        · rfl
        · exact hwith m' hrest' hmain
      · rcases List.mem_cons.mp hm' with rfl | hrest'
        · exact (hwith m hrest hmain.symm).symm
        · exact htail.agree m hrest m' hrest' hmain

theorem checkMappings_exists (names : GoMap String Unit)
    (configurations : GoMap String String) {virtualShardCount : UInt64}
    {mapped : List Bool} {listed : List UInt64}
    (h : Marks virtualShardCount mapped listed) {mappings : List VirtualShardMapping} :
    (∃ mapped', checkMappings (ε := ε) names virtualShardCount mapped
        configurations mappings = .ok mapped') ↔
      (∀ mapping ∈ mappings, MappingOk names mapping) ∧
      MirrorsAgree configurations mappings ∧
      (∀ i ∈ mappings.flatMap VirtualShardMapping.virtualShardIndexes,
        i < virtualShardCount) ∧
      (∀ i ∈ mappings.flatMap VirtualShardMapping.virtualShardIndexes, i ∉ listed) ∧
      (mappings.flatMap VirtualShardMapping.virtualShardIndexes).Nodup := by
  induction mappings generalizing mapped listed configurations with
  | nil => exact iff_of_true ⟨mapped, rfl⟩ ⟨by simp, ⟨by simp, by simp⟩, by simp⟩
  | cons mapping mappings ih =>
      simp only [checkMappings_cons, mirrorsAgree_cons, List.forall_mem_cons,
        List.flatMap_cons, List.mem_append, List.nodup_append]
      constructor
      · rintro ⟨mapped', hok, hkept, mapped₁, hindexes, hrest⟩
        obtain ⟨hrange, hfresh, hnodup⟩ := (checkIndexes_exists h).mp ⟨_, hindexes⟩
        obtain ⟨hoks, hagree, hrange', hfresh', hnodup'⟩ :=
          (ih _ (checkIndexes_marks h hindexes)).mp ⟨_, hrest⟩
        refine ⟨⟨hok, hoks⟩, ⟨hkept, hagree⟩, ?_, ?_, hnodup, hnodup', ?_⟩
        · rintro i (hi | hi)
          · exact hrange i hi
          · exact hrange' i hi
        · rintro i (hi | hi)
          · exact hfresh i hi
          · intro hlisted
            exact hfresh' i hi (List.mem_append_left _ hlisted)
        · rintro i hi j hj rfl
          exact hfresh' i hj (List.mem_append_right _ hi)
      · rintro ⟨⟨hok, hoks⟩, ⟨hkept, hagree⟩, hrange, hfresh, hnodup, hnodup', hapart⟩
        obtain ⟨mapped₁, hindexes⟩ := (checkIndexes_exists (ε := ε) h).mpr
          ⟨fun i hi => hrange i (.inl hi), fun i hi => hfresh i (.inl hi), hnodup⟩
        have hlater : ∀ i ∈ mappings.flatMap VirtualShardMapping.virtualShardIndexes,
            i ∉ listed ++ mapping.virtualShardIndexes := by
          intro i hi hlisted
          rcases List.mem_append.mp hlisted with hlisted | hhead
          · exact hfresh i (.inr hi) hlisted
          · exact hapart i hhead i hi rfl
        obtain ⟨mapped', hrest⟩ := (ih _ (checkIndexes_marks h hindexes)).mpr
          ⟨hoks, hagree, fun i hi => hrange i (.inr hi), hlater, hnodup'⟩
        exact ⟨mapped', hok, hkept, mapped₁, hindexes, hrest⟩

theorem checkMappings_marks {names : GoMap String Unit} {virtualShardCount : UInt64}
    {mapped mapped' : List Bool} {listed : List UInt64}
    (h : Marks virtualShardCount mapped listed)
    {configurations : GoMap String String} {mappings : List VirtualShardMapping}
    (hok : checkMappings (ε := ε) names virtualShardCount mapped configurations
      mappings = .ok mapped') :
    Marks virtualShardCount mapped'
      (listed ++ mappings.flatMap VirtualShardMapping.virtualShardIndexes) := by
  induction mappings generalizing mapped listed configurations with
  | nil =>
      cases hok
      simpa using h
  | cons mapping mappings ih =>
      obtain ⟨-, -, mapped₁, hindexes, hrest⟩ := checkMappings_cons.mp hok
      simpa [List.append_assoc] using ih (checkIndexes_marks h hindexes) hrest

/-! ## The whole check -/

/-- The comparison of mirror lists that the check makes. -/
def SameConfiguration (mirrors mirrors' : List String) : Prop :=
  mirrorConfiguration mirrors = mirrorConfiguration mirrors'

namespace OpenMeshConfig

theorem once_iff {config : OpenMeshConfig π}
    (hrange : ∀ i ∈ config.listed, i < config.virtualShardCount) :
    (∀ i < config.virtualShardCount, config.listed.count i = 1) ↔
      config.listed.Nodup ∧ ∀ i < config.virtualShardCount, i ∈ config.listed := by
  constructor
  · intro honce
    constructor
    · rw [List.nodup_iff_count_le_one]
      intro i
      by_cases hi : i ∈ config.listed
      · exact Nat.le_of_eq (honce i (hrange i hi))
      · simp [List.count_eq_zero_of_not_mem hi]
    · intro i hi
      apply List.count_pos_iff.mp
      simp [honce i hi]
  · rintro ⟨hnodup, hall⟩ i hi
    exact List.count_eq_one_of_mem hnodup (hall i hi)

variable {Opener Hasher : Type}

theorem validate_eq_ok (config : OpenMeshConfig π) (openNode : Opener)
    (shardHasher : Hasher) :
    validateMeshConfig (ε := ε) config (some openNode) (some shardHasher) = .ok () ↔
      config.ConsistentUpTo SameConfiguration := by
  have hmarks := Marks.none config.virtualShardCount
  unfold validateMeshConfig
  by_cases hsets : config.replicaSets = []
  · simp only [hsets, List.length_nil, if_true]
    constructor
    · intro h
      cases h
    · intro h
      exact absurd hsets h.replicaSets
  · by_cases hcount : config.virtualShardCount = 0
    · simp only [List.length_eq_zero_iff, hsets, hcount, if_true, if_false]
      constructor
      · intro h
        cases h
      · intro h
        have hpositive := h.virtualShards
        rw [hcount] at hpositive
        exact absurd hpositive (by decide)
    · have hpositive : 0 < config.virtualShardCount := UInt64.pos_iff_ne_zero.mpr hcount
      simp only [List.length_eq_zero_iff, hsets, hcount, if_false, Option.isNone_some,
        Bool.false_eq_true]
      constructor
      · intro h
        split at h
        · cases h
        · rename_i names hnames
          split at h
          · cases h
          · rename_i mapped hmapped
            obtain ⟨hspecs, hdistinct, -⟩ :=
              checkReplicaSets_exists.mp ⟨names, hnames⟩
            have hregistered := checkReplicaSets_names hnames
            obtain ⟨hoks, hagree, hrange, -, hnodup⟩ :=
              (checkMappings_exists _ _ hmarks).mp ⟨mapped, hmapped⟩
            rw [checkMapped_eq_ok, List.zipIdx_map_fst,
              (checkMappings_marks hmarks hmapped).all_iff] at h
            refine ⟨hsets, hpositive, fun spec hspec => (hspecs spec hspec).name,
              hdistinct, fun spec hspec => (hspecs spec hspec).dsns, ?_,
              fun m hm => (hoks m hm).notSelf, fun m hm => (hoks m hm).mirrorsOnce,
              hagree.agree, hrange, (once_iff hrange).mpr ⟨hnodup, h⟩⟩
            intro m hm n hn
            have hn := (hregistered n).mp ((hoks m hm).registered n hn)
            exact hn.resolve_left (by simp)
      · intro h
        obtain ⟨names, hnames⟩ := (checkReplicaSets_exists (ε := ε)).mpr
          ⟨fun spec hspec => ⟨h.nonblank spec hspec, h.dsns spec hspec⟩, h.distinct,
            fun n _ => GoMap.get?_nil n⟩
        have hregistered := checkReplicaSets_names hnames
        obtain ⟨hnodup, hall⟩ := (once_iff h.inRange).mp h.once
        obtain ⟨mapped, hmapped⟩ :=
            (checkMappings_exists (ε := ε) names [] hmarks).mpr
          ⟨fun m hm => ⟨fun n hn => (hregistered n).mpr (.inr (h.registered m hm n hn)),
              h.notSelf m hm, h.mirrorsOnce m hm⟩,
            ⟨by simp, h.sameMirrors⟩, h.inRange, by simp, hnodup⟩
        simp only [hnames, hmapped]
        rw [checkMapped_eq_ok, List.zipIdx_map_fst,
          (checkMappings_marks hmarks hmapped).all_iff]
        exact hall

theorem ConsistentUpTo.imp {same same' : List String → List String → Prop}
    {config : OpenMeshConfig π} (h : config.ConsistentUpTo same)
    (hsame : ∀ mapping ∈ config.mappings, ∀ mapping' ∈ config.mappings,
      mapping.mainReplicaSet = mapping'.mainReplicaSet →
      same mapping.mirrorReplicaSets mapping'.mirrorReplicaSets →
        same' mapping.mirrorReplicaSets mapping'.mirrorReplicaSets) :
    config.ConsistentUpTo same' :=
  { h with
    sameMirrors := fun m hm m' hm' hmain =>
      hsame m hm m' hm' hmain (h.sameMirrors m hm m' hm' hmain) }

/-- Different mirror lists of one main replica set do not join to the same text. -/
def MirrorsSeparated (config : OpenMeshConfig π) : Prop :=
  ∀ mapping ∈ config.mappings, ∀ mapping' ∈ config.mappings,
    mapping.mainReplicaSet = mapping'.mainReplicaSet →
    SameConfiguration mapping.mirrorReplicaSets mapping'.mirrorReplicaSets →
      mapping.mirrorReplicaSets = mapping'.mirrorReplicaSets

/--
The check accepts exactly the consistent configurations, unless the mirror
lists of some main replica set differ and only their joined names agree.
-/
theorem validate_accepts_iff_separated (config : OpenMeshConfig π)
    (openNode : Opener) (shardHasher : Hasher) :
    (validateMeshConfig (ε := ε) config (some openNode) (some shardHasher) = .ok () ↔
        config.Consistent) ↔
      (config.ConsistentUpTo SameConfiguration → config.MirrorsSeparated) := by
  rw [validate_eq_ok]
  constructor
  · intro hiff hjoined m hm m' hm' hmain _
    exact (hiff.mp hjoined).sameMirrors m hm m' hm' hmain
  · intro hseparated
    constructor
    · intro hjoined
      exact hjoined.imp (hseparated hjoined)
    · intro hconsistent
      apply hconsistent.imp
      intro m _ m' _ _ heq
      exact congrArg mirrorConfiguration heq

/-- Three mirrors, one of which is named like the other two joined. -/
def ambiguousMirrors : OpenMeshConfig Unit where
  replicaSets := ["main", "a", "b", "a\x00b"].map fun n => ⟨n, "dsn", []⟩
  virtualShardCount := 2
  mappings := [⟨[0], "main", ["a\x00b"]⟩, ⟨[1], "main", ["a", "b"]⟩]
  meterProvider := none

theorem validate_accepts_ambiguousMirrors :
    validateMeshConfig (ε := Empty) ambiguousMirrors (some ()) (some ()) = .ok () ∧
      ¬ambiguousMirrors.Consistent := by
  constructor
  · rfl
  · intro h
    have hsame := h.sameMirrors ⟨[0], "main", ["a\x00b"]⟩ (by simp [ambiguousMirrors])
      ⟨[1], "main", ["a", "b"]⟩ (by simp [ambiguousMirrors]) rfl
    exact absurd hsame (by decide)

end OpenMeshConfig

/-! ## Names without NUL -/

theorem intercalate_ne_nil {sep head : List Char} {rest : List (List Char)}
    (h : head ≠ []) : sep.intercalate (head :: rest) ≠ [] := by
  cases rest with
  | nil => simpa using h
  | cons next rest => simp [List.intercalate_cons_cons, h]

theorem toList_ne_nil_of_nonblank {n : String} (h : isBlank n = false) :
    n.toList ≠ [] := by
  intro hnil
  simp [isBlank, hnil] at h

theorem toList_mirrorConfiguration (mirrors : List String) :
    (mirrorConfiguration mirrors).toList =
      ['\x00'].intercalate (mirrors.map String.toList) := by
  simp [mirrorConfiguration, join]

theorem splitOn_mirrorConfiguration {mirrors : List String} (hne : mirrors ≠ [])
    (hnul : ∀ n ∈ mirrors, '\x00' ∉ n.toList) :
    (mirrorConfiguration mirrors).toList.splitOn '\x00' =
      mirrors.map String.toList := by
  rw [toList_mirrorConfiguration]
  apply List.splitOn_intercalate
  · simpa using hnul
  · simpa using hne

/-- Nonblank names without NUL can be read back from their joined text. -/
theorem mirrorConfiguration_inj {mirrors mirrors' : List String}
    (hnul : ∀ n ∈ mirrors ++ mirrors', '\x00' ∉ n.toList)
    (hblank : ∀ n ∈ mirrors ++ mirrors', isBlank n = false)
    (h : mirrorConfiguration mirrors = mirrorConfiguration mirrors') :
    mirrors = mirrors' := by
  have hempty : ∀ {n : String} {rest : List String}, isBlank n = false →
      mirrorConfiguration [] ≠ mirrorConfiguration (n :: rest) := by
    intro n rest hn heq
    have hlists := congrArg String.toList heq
    rw [toList_mirrorConfiguration, toList_mirrorConfiguration] at hlists
    exact intercalate_ne_nil (toList_ne_nil_of_nonblank hn) hlists.symm
  cases mirrors with
  | nil =>
      cases mirrors' with
      | nil => rfl
      | cons n rest => exact absurd h (hempty (hblank n (by simp)))
  | cons n rest =>
      cases mirrors' with
      | nil => exact absurd h.symm (hempty (hblank n (by simp)))
      | cons n' rest' =>
          have hsplit := congrArg (fun t => t.toList.splitOn '\x00') h
          rw [splitOn_mirrorConfiguration (by simp) fun m hm =>
              hnul m (List.mem_append_left _ hm),
            splitOn_mirrorConfiguration (by simp) fun m hm =>
              hnul m (List.mem_append_right _ hm)] at hsplit
          exact List.map_injective_iff.mpr (fun _ _ => String.toList_inj.mp) hsplit

/-- Names without NUL keep the mirror lists of a configuration apart. -/
theorem OpenMeshConfig.ConsistentUpTo.separated {config : OpenMeshConfig π}
    {same : List String → List String → Prop} (h : config.ConsistentUpTo same)
    (hnul : ∀ n ∈ config.names, '\x00' ∉ n.toList) : config.MirrorsSeparated := by
  have hmirror : ∀ m ∈ config.mappings, ∀ n ∈ m.mirrorReplicaSets,
      '\x00' ∉ n.toList ∧ isBlank n = false := by
    intro m hm n hn
    have hname := h.registered m hm n (List.mem_cons_of_mem _ hn)
    obtain ⟨spec, hspec, rfl⟩ := List.mem_map.mp hname
    exact ⟨hnul _ hname, h.nonblank spec hspec⟩
  intro m hm m' hm' _ hsame
  have hboth : ∀ n ∈ m.mirrorReplicaSets ++ m'.mirrorReplicaSets,
      '\x00' ∉ n.toList ∧ isBlank n = false := by
    intro n hn
    rcases List.mem_append.mp hn with hn | hn
    · exact hmirror m hm n hn
    · exact hmirror m' hm' n hn
  exact mirrorConfiguration_inj (fun n hn => (hboth n hn).1)
    (fun n hn => (hboth n hn).2) hsame

end PgMesh.Topology
