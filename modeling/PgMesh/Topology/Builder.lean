import PgMesh.Foundation.GoError
import PgMesh.Foundation.GoMap
import Mathlib.Data.List.Nodup

/-!
# Meshes

A replica set is known by its pointer, compared by identity, and has a name.
`Mesh` carries what `Build` checks, so a mesh that `Build` would refuse cannot
be written down.
-/

namespace PgMesh.Topology

open PgMesh.Foundation

/-- The method `Name` of a replica set. -/
class Named (ρ : Type) where
  name : ρ → String

export Named (name)

variable {ρ κ ε : Type} [Named ρ]

/-! ## Errors -/

def errVirtualShardOutOfRange : GoError ε :=
  .new "pgmesh: virtual shard is out of range"

def errNilReplicaSet : GoError ε :=
  .new "pgmesh: replica set must not be nil"

def errVirtualShardAlreadyMapped : GoError ε :=
  .new "pgmesh: virtual shard is already mapped"

def errNoVirtualShards : GoError ε :=
  .new "pgmesh: at least one virtual shard is required"

def errNilShardHasher : GoError ε := .new "pgmesh: shard hasher is required"

def errVirtualShardNotMapped : GoError ε :=
  .new "pgmesh: virtual shard is not mapped"

def errEmptyReplicaSetName : GoError ε :=
  .new "pgmesh: replica set name must not be empty"

def errDuplicateReplicaSet : GoError ε :=
  .new "pgmesh: duplicate replica set"

/-- The characters with the Unicode property White_Space, as `unicode.IsSpace`. -/
def isSpace (c : Char) : Bool :=
  c.toNat ∈ [0x09, 0x0a, 0x0b, 0x0c, 0x0d, 0x20, 0x85, 0xa0, 0x1680, 0x2028,
    0x2029, 0x202f, 0x205f, 0x3000] ||
  (0x2000 ≤ c.toNat && c.toNat ≤ 0x200a)

/-- `strings.TrimSpace(name) == ""`. -/
def isBlank (s : String) : Bool := s.toList.all isSpace

/-! ## The builder -/

structure MeshBuilder (ρ κ ε : Type) where
  virtualShards : List (Option ρ)
  hasher : Option (κ → UInt64)
  err : Option (GoError ε)

namespace MeshBuilder

/-- `telemetryErr` is the error of `newMeshTelemetry`. -/
def newMeshBuilder (virtualShardCount : UInt64)
    (telemetryErr : Option (GoError ε)) : MeshBuilder ρ κ ε where
  virtualShards := List.replicate virtualShardCount.toNat none
  hasher := none
  err := telemetryErr

/-- `providerErr` is the error of `setMeterProvider`. -/
def withMeterProvider (b : MeshBuilder ρ κ ε)
    (providerErr : Option (GoError ε)) : MeshBuilder ρ κ ε :=
  match providerErr, b.err with
  | some err, none =>
      { b with
        err := some (.errorf "configure OpenTelemetry metrics: %w"
          [.wrapped err]) }
  | _, _ => b

def withShardHasher (b : MeshBuilder ρ κ ε) (hasher : Option (κ → UInt64)) :
    MeshBuilder ρ κ ε :=
  { b with hasher := hasher }

def mapVirtualShard (b : MeshBuilder ρ κ ε) (virtualShardIndex : UInt64)
    (replicaSet : Option ρ) : MeshBuilder ρ κ ε :=
  match b.err with
  | some _ => b
  | none =>
      if b.virtualShards.length ≤ virtualShardIndex.toNat then
        { b with
          err := some (.errorf "%w: %d"
            [.wrapped errVirtualShardOutOfRange,
              .number virtualShardIndex.toNat]) }
      else
        match replicaSet with
        | none =>
            { b with
              err := some (.errorf "%w: virtual shard %d"
                [.wrapped errNilReplicaSet, .number virtualShardIndex.toNat]) }
        | some replicaSet =>
            match b.virtualShards[virtualShardIndex.toNat]?.join with
            | some _ =>
                { b with
                  err := some (.errorf "%w: %d"
                    [.wrapped errVirtualShardAlreadyMapped,
                      .number virtualShardIndex.toNat]) }
            | none =>
                { b with
                  virtualShards := b.virtualShards.set virtualShardIndex.toNat
                    (some replicaSet) }

end MeshBuilder

section Build

variable [DecidableEq ρ]

/-- The local variables of the loop of `Build`. -/
structure BuildState (ρ : Type) where
  virtualShards : List ρ
  replicaSets : List ρ
  seen : GoMap ρ Unit
  seenNames : GoMap String ρ

namespace BuildState

def empty : BuildState ρ := ⟨[], [], [], []⟩

/-- The body of the loop of `Build`. -/
def add (s : BuildState ρ) (index : Nat) (replicaSet : Option ρ) :
    Except (GoError ε) (BuildState ρ) :=
  match replicaSet with
  | none =>
      .error (.errorf "%w: %d"
        [.wrapped errVirtualShardNotMapped, .number index])
  | some replicaSet =>
      if isBlank (name replicaSet) then
        .error (.errorf "%w: virtual shard %d"
          [.wrapped errEmptyReplicaSetName, .number index])
      else if (GoMap.get? s.seenNames (name replicaSet)).any (· ≠ replicaSet) then
        .error (.errorf "%w: %q"
          [.wrapped errDuplicateReplicaSet, .text (name replicaSet)])
      else
        let seenNames := GoMap.set s.seenNames (name replicaSet) replicaSet
        let virtualShards := s.virtualShards ++ [replicaSet]
        match GoMap.get? s.seen replicaSet with
        | some () => .ok ⟨virtualShards, s.replicaSets, s.seen, seenNames⟩
        | none =>
            .ok ⟨virtualShards, s.replicaSets ++ [replicaSet],
              GoMap.set s.seen replicaSet (), seenNames⟩

def addAll (s : BuildState ρ) :
    List (Option ρ × Nat) → Except (GoError ε) (BuildState ρ)
  | [] => .ok s
  | (replicaSet, index) :: shards =>
      match s.add index replicaSet with
      | .error err => .error err
      | .ok s => s.addAll shards

structure WellFormed (s : BuildState ρ) : Prop where
  nodup : s.replicaSets.Nodup
  mem_iff : ∀ r, r ∈ s.replicaSets ↔ r ∈ s.virtualShards
  seen_iff : ∀ r, GoMap.get? s.seen r = some () ↔ r ∈ s.replicaSets
  named : ∀ r ∈ s.replicaSets, GoMap.get? s.seenNames (name r) = some r
  nonblank : ∀ r ∈ s.replicaSets, isBlank (name r) = false

theorem empty_wellFormed : (empty : BuildState ρ).WellFormed :=
  ⟨.nil, by simp [empty], by simp [empty], by simp [empty], by simp [empty]⟩

/-- What an iteration of the loop that does not fail has done. -/
theorem add_eq_ok {s s' : BuildState ρ} {index : Nat} {shard : Option ρ}
    (h : s.add (ε := ε) index shard = .ok s') :
    ∃ r, shard = some r ∧ isBlank (name r) = false ∧
      (∀ previous, GoMap.get? s.seenNames (name r) = some previous →
        previous = r) ∧
      s'.virtualShards = s.virtualShards ++ [r] ∧
      s'.seenNames = GoMap.set s.seenNames (name r) r ∧
      ((GoMap.get? s.seen r = some () ∧ s'.replicaSets = s.replicaSets ∧
          s'.seen = s.seen) ∨
        (GoMap.get? s.seen r = none ∧ s'.replicaSets = s.replicaSets ++ [r] ∧
          s'.seen = GoMap.set s.seen r ())) := by
  simp only [add] at h
  split at h
  · cases h
  · rename_i r
    split at h
    · cases h
    · rename_i hblank
      split at h
      · cases h
      · rename_i hduplicate
        have hprevious : ∀ previous,
            GoMap.get? s.seenNames (name r) = some previous → previous = r := by
          intro previous hget
          simpa [hget] using hduplicate
        refine ⟨r, rfl, by simpa using hblank, hprevious, ?_⟩
        split at h
        · rename_i hseen
          cases h
          exact ⟨rfl, rfl, .inl ⟨hseen, rfl, rfl⟩⟩
        · rename_i hseen
          cases h
          exact ⟨rfl, rfl, .inr ⟨hseen, rfl, rfl⟩⟩

theorem WellFormed.add {s s' : BuildState ρ} {index : Nat} {shard : Option ρ}
    (h : s.WellFormed) (hadd : s.add (ε := ε) index shard = .ok s') :
    s'.WellFormed := by
  obtain ⟨r, -, hblank, hprevious, hshards, hnames, hcase⟩ := add_eq_ok hadd
  -- A known name belongs to the same replica set, so its entry stays.
  have hnamed : ∀ other ∈ s.replicaSets,
      GoMap.get? s'.seenNames (name other) = some other := by
    intro other hother
    rw [hnames, GoMap.get?_set]
    split
    · rename_i hname
      have hget := h.named other hother
      rw [← hname] at hget
      rw [hprevious other hget]
    · exact h.named other hother
  rcases hcase with ⟨hseen, hsets, hseen'⟩ | ⟨hunseen, hsets, hseen'⟩
  · have hmem : r ∈ s.replicaSets := (h.seen_iff r).mp hseen
    refine ⟨hsets ▸ h.nodup, ?_, ?_, hsets ▸ hnamed, hsets ▸ h.nonblank⟩
    · intro other
      rw [hsets, hshards, List.mem_append, List.mem_singleton, h.mem_iff]
      constructor
      · exact Or.inl
      · rintro (hother | rfl)
        · exact hother
        · exact (h.mem_iff other).mp hmem
    · rw [hsets, hseen']
      exact h.seen_iff
  · have hnew : r ∉ s.replicaSets := by
      intro hmem
      rw [(h.seen_iff r).mpr hmem] at hunseen
      cases hunseen
    refine ⟨?_, ?_, ?_, ?_, ?_⟩
    · rw [hsets]
      apply List.nodup_append.mpr
      refine ⟨h.nodup, List.nodup_singleton r, ?_⟩
      rintro other hother _ hlast rfl
      rw [List.mem_singleton.mp hlast] at hother
      exact hnew hother
    · intro other
      rw [hsets, hshards, List.mem_append, List.mem_append, h.mem_iff]
    · intro other
      rw [hsets, hseen', GoMap.get?_set, List.mem_append, List.mem_singleton]
      split
      · rename_i heq
        simp [heq]
      · rename_i hne
        rw [h.seen_iff]
        constructor
        · exact Or.inl
        · rintro (hmem | rfl)
          · exact hmem
          · exact absurd rfl hne
    · intro other hother
      rw [hsets, List.mem_append, List.mem_singleton] at hother
      rcases hother with hother | rfl
      · exact hnamed other hother
      · rw [hnames, GoMap.get?_set, if_pos rfl]
    · intro other hother
      rw [hsets, List.mem_append, List.mem_singleton] at hother
      rcases hother with hother | rfl
      · exact h.nonblank other hother
      · exact hblank

theorem WellFormed.addAll {s s' : BuildState ρ} {shards : List (Option ρ × Nat)}
    (h : s.WellFormed) (hadd : s.addAll (ε := ε) shards = .ok s') :
    s'.WellFormed := by
  induction shards generalizing s with
  | nil =>
      cases hadd
      exact h
  | cons shard shards ih =>
      obtain ⟨replicaSet, index⟩ := shard
      simp only [BuildState.addAll] at hadd
      split at hadd
      · cases hadd
      · rename_i next hnext
        exact ih (h.add hnext) hadd

theorem addAll_virtualShards {s s' : BuildState ρ}
    {shards : List (Option ρ × Nat)}
    (hadd : s.addAll (ε := ε) shards = .ok s') :
    s'.virtualShards.map some =
      s.virtualShards.map some ++ shards.map Prod.fst := by
  induction shards generalizing s with
  | nil =>
      cases hadd
      simp
  | cons shard shards ih =>
      obtain ⟨replicaSet, index⟩ := shard
      simp only [addAll] at hadd
      split at hadd
      · cases hadd
      · rename_i next hnext
        obtain ⟨r, rfl, -, -, hshards, -, -⟩ := add_eq_ok hnext
        rw [ih hadd, hshards]
        simp

end BuildState

/-! ## The mesh -/

structure Mesh (ρ κ : Type) [Named ρ] where
  virtualShards : List ρ
  replicaSets : List ρ
  hasher : κ → UInt64
  nonempty : virtualShards ≠ []
  nodup : replicaSets.Nodup
  mem_iff : ∀ r, r ∈ replicaSets ↔ r ∈ virtualShards
  name_inj : ∀ r ∈ replicaSets, ∀ r' ∈ replicaSets, name r = name r' → r = r'
  nonblank : ∀ r ∈ replicaSets, isBlank (name r) = false

theorem BuildState.WellFormed.name_inj {s : BuildState ρ} (h : s.WellFormed) :
    ∀ r ∈ s.replicaSets, ∀ r' ∈ s.replicaSets, name r = name r' → r = r' := by
  intro r hr r' hr' hname
  have hget := h.named r hr
  rw [hname, h.named r' hr'] at hget
  exact (Option.some.inj hget).symm

def MeshBuilder.build (b : MeshBuilder ρ κ ε) :
    Except (GoError ε) (Mesh ρ κ) :=
  match b.err with
  | some err => .error err
  | none =>
      if hempty : b.virtualShards.length = 0 then .error errNoVirtualShards
      else
        match b.hasher with
        | none => .error errNilShardHasher
        | some hasher =>
            match hadd : BuildState.empty.addAll b.virtualShards.zipIdx with
            | .error err => .error err
            | .ok s =>
                have hs : s.WellFormed :=
                  BuildState.empty_wellFormed.addAll hadd
                .ok {
                  virtualShards := s.virtualShards
                  replicaSets := s.replicaSets
                  hasher := hasher
                  nonempty := by
                    have hshards := BuildState.addAll_virtualShards hadd
                    intro hnil
                    rw [hnil] at hshards
                    apply hempty
                    simpa [BuildState.empty] using hshards
                  nodup := hs.nodup
                  mem_iff := hs.mem_iff
                  name_inj := hs.name_inj
                  nonblank := hs.nonblank }

/-- A mesh has the hasher and the virtual shards of its builder. -/
theorem MeshBuilder.build_eq_ok {b : MeshBuilder ρ κ ε} {mesh : Mesh ρ κ}
    (h : b.build = .ok mesh) :
    b.err = none ∧ b.hasher = some mesh.hasher ∧
      mesh.virtualShards.map some = b.virtualShards := by
  unfold build at h
  split at h
  · cases h
  · rename_i herr
    split at h
    · cases h
    · split at h
      · cases h
      · rename_i hasher hhasher
        split at h
        · cases h
        · rename_i s hadd
          cases h
          refine ⟨herr, hhasher, ?_⟩
          rw [BuildState.addAll_virtualShards hadd, List.zipIdx_map_fst]
          rfl

end Build

/-- A virtual shard selected from a key, with its replica set. -/
structure ResolvedShard (ρ : Type) where
  virtualShardIndex : UInt64
  replicaSet : ρ

def ResolvedShard.replicaSetName (s : ResolvedShard ρ) : String :=
  name s.replicaSet

namespace Mesh

def resolve (m : Mesh ρ κ) (key : κ) :
    Except (GoError ε) (ResolvedShard ρ) :=
  let virtualShardIndex := m.hasher key
  match m.virtualShards[virtualShardIndex.toNat]? with
  | none =>
      .error (.errorf "%w: got %d, valid range is [0,%d)"
        [.wrapped errVirtualShardOutOfRange,
          .number virtualShardIndex.toNat, .number m.virtualShards.length])
  | some replicaSet => .ok ⟨virtualShardIndex, replicaSet⟩

/-- The replica set of the virtual shard of a key, if the key is in range. -/
def target? (m : Mesh ρ κ) (key : κ) : Option ρ :=
  m.virtualShards[(m.hasher key).toNat]?

theorem target?_mem {m : Mesh ρ κ} {key : κ} {r : ρ}
    (h : m.target? key = some r) : r ∈ m.replicaSets := by
  rw [m.mem_iff]
  exact List.mem_of_getElem? h

theorem target?_of_ok {m : Mesh ρ κ} {key : κ} {shard : ResolvedShard ρ}
    (h : m.resolve (ε := ε) key = .ok shard) :
    m.target? key = some shard.replicaSet := by
  simp only [resolve] at h
  split at h
  · cases h
  · rename_i replicaSet hget
    cases h
    exact hget

theorem target?_of_error {m : Mesh ρ κ} {key : κ} {err : GoError ε}
    (h : m.resolve key = .error err) : m.target? key = none := by
  simp only [resolve] at h
  split at h
  · rename_i hget
    exact hget
  · cases h

theorem resolve_of_target? {m : Mesh ρ κ} {key : κ} {r : ρ} (h : m.target? key = some r) :
    m.resolve (ε := ε) key = .ok ⟨m.hasher key, r⟩ := by
  unfold target? at h
  simp only [resolve, h]

theorem names_nodup (m : Mesh ρ κ) : (m.replicaSets.map name).Nodup := by
  apply List.Nodup.map_on _ m.nodup
  exact m.name_inj

end Mesh

/-! ## A mesh of two replica sets -/

inductive Site where
  | east
  | west
  deriving DecidableEq, Repr

instance : Named Site where
  name
    | .east => "east"
    | .west => "west"

def twoSites : Mesh Site Nat where
  virtualShards := [.east, .west]
  replicaSets := [.east, .west]
  hasher := UInt64.ofNat
  nonempty := by decide
  nodup := by decide
  mem_iff := by simp
  name_inj := by decide
  nonblank := by decide

end PgMesh.Topology
