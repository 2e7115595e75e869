import PgMesh.Topology.Builder
import Mathlib.Data.List.Induction

/-!
# Sequences of builder operations

A builder keeps the first error that one of its operations records.  As long
as there is none, its virtual shards are given by the assignments made so far,
and `Build` succeeds exactly when these assignments describe a mesh.
-/

namespace PgMesh.Topology

open PgMesh.Foundation

variable {ρ κ ε : Type}

/-- A call of a method of the builder, with the error of the meter provider if it fails. -/
inductive BuilderOp (ρ κ ε : Type) where
  | withTracerProvider
  | withMeterProvider (providerErr : Option (GoError ε))
  | withLogger
  | withShardHasher (hasher : Option (κ → UInt64))
  | mapVirtualShard (virtualShardIndex : UInt64) (replicaSet : Option ρ)

namespace MeshBuilder

/-- The tracer provider and the logger are read by telemetry only. -/
def apply (b : MeshBuilder ρ κ ε) : BuilderOp ρ κ ε → MeshBuilder ρ κ ε
  | .withTracerProvider => b
  | .withMeterProvider providerErr => b.withMeterProvider providerErr
  | .withLogger => b
  | .withShardHasher hasher => b.withShardHasher hasher
  | .mapVirtualShard virtualShardIndex replicaSet =>
      b.mapVirtualShard virtualShardIndex replicaSet

def applyAll (b : MeshBuilder ρ κ ε) (ops : List (BuilderOp ρ κ ε)) :
    MeshBuilder ρ κ ε :=
  ops.foldl apply b

/-! ## One operation -/

theorem mapVirtualShard_of_err {b : MeshBuilder ρ κ ε} (h : b.err ≠ none)
    (i : UInt64) (r : Option ρ) : b.mapVirtualShard i r = b := by
  unfold mapVirtualShard
  cases herr : b.err with
  | none => exact absurd herr h
  | some err => rfl

theorem mapVirtualShard_of_free {b : MeshBuilder ρ κ ε} {i : UInt64} {r : ρ}
    (herr : b.err = none) (hi : i.toNat < b.virtualShards.length)
    (hfree : b.virtualShards[i.toNat]?.join = none) :
    b.mapVirtualShard i (some r) =
      { b with virtualShards := b.virtualShards.set i.toNat (some r) } := by
  unfold mapVirtualShard
  simp [herr, hfree, Nat.not_le.mpr hi]

theorem mapVirtualShard_refused {b : MeshBuilder ρ κ ε} {i : UInt64}
    {r : Option ρ} (herr : b.err = none)
    (h : b.virtualShards.length ≤ i.toNat ∨ r = none ∨
      b.virtualShards[i.toNat]?.join ≠ none) :
    ∃ err, b.mapVirtualShard i r = { b with err := some err } := by
  unfold mapVirtualShard
  simp only [herr]
  by_cases hrange : b.virtualShards.length ≤ i.toNat
  · simp [hrange]
  · cases r with
    | none => simp [hrange]
    | some r =>
        cases hold : b.virtualShards[i.toNat]?.join with
        | none => simp [hrange, hold] at h
        | some old => simp [hrange]

theorem apply_err {b : MeshBuilder ρ κ ε} {err : GoError ε}
    (h : b.err = some err) (op : BuilderOp ρ κ ε) :
    (b.apply op).err = some err := by
  cases op with
  | withTracerProvider => exact h
  | withMeterProvider providerErr =>
      cases providerErr <;> simp [apply, withMeterProvider, h]
  | withLogger => exact h
  | withShardHasher hasher => exact h
  | mapVirtualShard i r =>
      simp only [apply]
      rw [mapVirtualShard_of_err (by simp [h])]
      exact h

theorem applyAll_err {b : MeshBuilder ρ κ ε} {err : GoError ε}
    (h : b.err = some err) (ops : List (BuilderOp ρ κ ε)) :
    (b.applyAll ops).err = some err := by
  induction ops generalizing b with
  | nil => exact h
  | cons op ops ih => exact ih (apply_err h op)

end MeshBuilder

/-! ## What the operations say -/

/-- The assignments that the operations ask for. -/
def assignments : List (BuilderOp ρ κ ε) → List (UInt64 × Option ρ)
  | [] => []
  | .mapVirtualShard i r :: ops => (i, r) :: assignments ops
  | _ :: ops => assignments ops

/-- The hasher of the last `WithShardHasher`. -/
def lastHasher : List (BuilderOp ρ κ ε) → Option (κ → UInt64) :=
  List.foldl (fun hasher op =>
    match op with
    | .withShardHasher hasher => hasher
    | _ => hasher) none

/-- No operation fails on a builder of `count` virtual shards. -/
structure Faultless (count : Nat) (ops : List (BuilderOp ρ κ ε)) : Prop where
  metered : ∀ err, .withMeterProvider (some err) ∉ ops
  inRange : ∀ a ∈ assignments ops, a.1.toNat < count
  nonnil : ∀ a ∈ assignments ops, a.2 ≠ none
  once : ((assignments ops).map Prod.fst).Nodup

theorem assignments_append (ops ops' : List (BuilderOp ρ κ ε)) :
    assignments (ops ++ ops') = assignments ops ++ assignments ops' := by
  induction ops with
  | nil => rfl
  | cons op ops ih => cases op <;> simp [assignments, ih]

theorem lastHasher_concat (ops : List (BuilderOp ρ κ ε)) (op : BuilderOp ρ κ ε) :
    lastHasher (ops ++ [op]) =
      match op with
      | .withShardHasher hasher => hasher
      | _ => lastHasher ops := by
  cases op <;> simp [lastHasher]

theorem lastHasher_append {ops ops' : List (BuilderOp ρ κ ε)}
    (h : ∀ op ∈ ops', ∀ hasher, op ≠ .withShardHasher hasher) :
    lastHasher (ops ++ ops') = lastHasher ops := by
  induction ops' using List.reverseRecOn with
  | nil => simp
  | append_singleton ops' op ih =>
      rw [← List.append_assoc, lastHasher_concat,
        ih fun op' hop' => h op' (List.mem_append_left _ hop')]
      cases op with
      | withShardHasher hasher => exact absurd rfl (h _ (by simp) hasher)
      | _ => rfl

/-- The builder after the operations. -/
structure Described (telemetryErr : Option (GoError ε)) (count : Nat)
    (ops : List (BuilderOp ρ κ ε)) (b : MeshBuilder ρ κ ε) : Prop where
  length : b.virtualShards.length = count
  hasher : b.hasher = lastHasher ops
  err : b.err = none ↔ telemetryErr = none ∧ Faultless count ops
  mapped : b.err = none → ∀ i r, b.virtualShards[i]? = some (some r) ↔
    ∃ k : UInt64, k.toNat = i ∧ (k, some r) ∈ assignments ops

section Run

variable {telemetryErr : Option (GoError ε)} {count : Nat}
  {ops : List (BuilderOp ρ κ ε)} {b : MeshBuilder ρ κ ε}

theorem Faultless.before {ops' : List (BuilderOp ρ κ ε)}
    (h : Faultless count (ops ++ ops')) : Faultless count ops := by
  have hassign := assignments_append ops ops'
  refine ⟨?_, ?_, ?_, ?_⟩
  · intro err hmem
    exact h.metered err (List.mem_append_left _ hmem)
  · intro a ha
    exact h.inRange a (by rw [hassign]; exact List.mem_append_left _ ha)
  · intro a ha
    exact h.nonnil a (by rw [hassign]; exact List.mem_append_left _ ha)
  · have honce := h.once
    rw [hassign, List.map_append] at honce
    exact honce.of_append_left

theorem Described.silent (h : Described telemetryErr count ops b)
    {op : BuilderOp ρ κ ε} {b' : MeshBuilder ρ κ ε}
    (hassign : assignments [op] = [])
    (hmeter : ∀ err, op ≠ .withMeterProvider (some err))
    (hshards : b'.virtualShards = b.virtualShards)
    (hhasher : b'.hasher = lastHasher (ops ++ [op])) (herr : b'.err = b.err) :
    Described telemetryErr count (ops ++ [op]) b' := by
  have hsame : assignments (ops ++ [op]) = assignments ops := by
    rw [assignments_append, hassign, List.append_nil]
  have hfault : Faultless count (ops ++ [op]) ↔ Faultless count ops := by
    constructor
    · exact Faultless.before
    · intro hops
      refine ⟨?_, ?_, ?_, ?_⟩
      · intro err hmem
        rcases List.mem_append.mp hmem with hmem | hmem
        · exact hops.metered err hmem
        · exact hmeter err (List.mem_singleton.mp hmem).symm
      · simpa [hsame] using hops.inRange
      · simpa [hsame] using hops.nonnil
      · simpa [hsame] using hops.once
  refine ⟨by rw [hshards, h.length], hhasher, ?_, ?_⟩
  · rw [herr, h.err, hfault]
  · rw [herr, hshards, hsame]
    exact h.mapped

theorem Described.failed (h : Described telemetryErr count ops b)
    {op : BuilderOp ρ κ ε} {b' : MeshBuilder ρ κ ε}
    (hshards : b'.virtualShards = b.virtualShards)
    (hhasher : b'.hasher = lastHasher (ops ++ [op])) (herr : b'.err ≠ none)
    (hfault : b.err = none → ¬Faultless count (ops ++ [op])) :
    Described telemetryErr count (ops ++ [op]) b' := by
  refine ⟨by rw [hshards, h.length], hhasher, ?_, fun hnone => absurd hnone herr⟩
  constructor
  · intro hnone
    exact absurd hnone herr
  · rintro ⟨htelemetry, hall⟩
    exact absurd hall (hfault (h.err.mpr ⟨htelemetry, hall.before⟩))

/-- The virtual shard of an assignment that the builder can make is free. -/
theorem Described.free_iff (h : Described telemetryErr count ops b)
    (hnone : b.err = none) {i : UInt64} (hi : i.toNat < count) :
    b.virtualShards[i.toNat]?.join = none ↔
      i ∉ (assignments ops).map Prod.fst := by
  have hfault := (h.err.mp hnone).2
  constructor
  · intro hfree hmem
    obtain ⟨⟨k, r⟩, hassigned, rfl⟩ := List.mem_map.mp hmem
    cases r with
    | none => exact hfault.nonnil _ hassigned rfl
    | some r =>
        rw [(h.mapped hnone _ r).mpr ⟨k, rfl, hassigned⟩] at hfree
        cases hfree
  · intro hfresh
    cases hget : b.virtualShards[i.toNat]?.join with
    | none => rfl
    | some r =>
        have hsome := Option.join_eq_some_iff.mp hget
        obtain ⟨k, hk, hmem⟩ := (h.mapped hnone _ r).mp hsome
        rw [UInt64.toNat_inj.mp hk] at hmem
        exact absurd (List.mem_map_of_mem hmem) hfresh

theorem Described.assigned (h : Described telemetryErr count ops b)
    (hnone : b.err = none) {i : UInt64} {r : ρ} (hi : i.toNat < count)
    (hfresh : i ∉ (assignments ops).map Prod.fst) :
    Described telemetryErr count (ops ++ [.mapVirtualShard i (some r)])
      { b with virtualShards := b.virtualShards.set i.toNat (some r) } := by
  obtain ⟨htelemetry, hfault⟩ := h.err.mp hnone
  have hassign : assignments (ops ++ [.mapVirtualShard i (some r)]) =
      assignments ops ++ [(i, some r)] := assignments_append _ _
  refine ⟨by simp [h.length], ?_, ?_, ?_⟩
  · rw [lastHasher_concat]
    exact h.hasher
  · constructor
    · intro _
      refine ⟨htelemetry, ?_, ?_, ?_, ?_⟩
      · intro err hmem
        have hmem : .withMeterProvider (some err) ∈ ops := by simpa using hmem
        exact hfault.metered err hmem
      · rw [hassign]
        intro a ha
        rcases List.mem_append.mp ha with ha | ha
        · exact hfault.inRange a ha
        · rw [List.mem_singleton.mp ha]
          exact hi
      · rw [hassign]
        intro a ha
        rcases List.mem_append.mp ha with ha | ha
        · exact hfault.nonnil a ha
        · rw [List.mem_singleton.mp ha]
          simp
      · rw [hassign, List.map_append, List.nodup_append]
        refine ⟨hfault.once, by simp, ?_⟩
        intro k hk k' hk' heq
        have hlast : k' = i := by simpa using hk'
        rw [heq, hlast] at hk
        exact hfresh hk
    · intro _
      exact hnone
  · intro _ j r'
    rw [hassign, List.getElem?_set]
    have hlength := h.length
    by_cases hj : i.toNat = j
    · -- The slot just filled was free, so no earlier assignment names it.
      subst hj
      rw [if_pos rfl, if_pos (by omega)]
      constructor
      · intro heq
        cases heq
        exact ⟨i, rfl, by simp⟩
      · rintro ⟨k, hk, hmem⟩
        rw [UInt64.toNat_inj.mp hk] at hmem
        rcases List.mem_append.mp hmem with hmem | hmem
        · exact absurd (List.mem_map_of_mem hmem) hfresh
        · have hlast : r' = r := by simpa using hmem
          rw [hlast]
    · rw [if_neg hj, h.mapped hnone]
      constructor
      · rintro ⟨k, hk, hmem⟩
        exact ⟨k, hk, List.mem_append_left _ hmem⟩
      · rintro ⟨k, hk, hmem⟩
        rcases List.mem_append.mp hmem with hmem | hmem
        · exact ⟨k, hk, hmem⟩
        · have hlast : k = i ∧ r' = r := by simpa using hmem
          rw [hlast.1] at hk
          exact absurd hk hj

theorem Described.mapVirtualShard (h : Described telemetryErr count ops b)
    (i : UInt64) (r : Option ρ) :
    Described telemetryErr count (ops ++ [.mapVirtualShard i r])
      (b.mapVirtualShard i r) := by
  have hhasher : b.hasher =
      lastHasher (ops ++ [.mapVirtualShard i r]) := by
    rw [lastHasher_concat]
    exact h.hasher
  cases hnone : b.err with
  | some err =>
      rw [MeshBuilder.mapVirtualShard_of_err (by simp [hnone])]
      exact h.failed rfl hhasher (by simp [hnone]) (by simp [hnone])
  | none =>
      have hassign : assignments (ops ++ [.mapVirtualShard i r]) =
          assignments ops ++ [(i, r)] := assignments_append _ _
      by_cases hrefused : b.virtualShards.length ≤ i.toNat ∨ r = none ∨
          b.virtualShards[i.toNat]?.join ≠ none
      · obtain ⟨err, herr⟩ := MeshBuilder.mapVirtualShard_refused hnone hrefused
        have hset : (b.mapVirtualShard i r).err ≠ none := by simp [herr]
        apply h.failed (by rw [herr]) (by rw [herr]; exact hhasher) hset
        intro _ hfault
        have hi : i.toNat < count := hfault.inRange (i, r) (by simp [hassign])
        have hr : r ≠ none := hfault.nonnil (i, r) (by simp [hassign])
        have honce := hfault.once
        rw [hassign, List.map_append, List.nodup_append] at honce
        have hfresh : i ∉ (assignments ops).map Prod.fst := by
          intro hmem
          exact honce.2.2 i hmem i (by simp) rfl
        rcases hrefused with hrange | hnil | htaken
        · rw [h.length] at hrange
          omega
        · exact hr hnil
        · exact htaken ((h.free_iff hnone hi).mpr hfresh)
      · simp only [not_or, not_not, Nat.not_le] at hrefused
        obtain ⟨hi, hr, hfree⟩ := hrefused
        obtain ⟨r, rfl⟩ := Option.ne_none_iff_exists'.mp hr
        rw [MeshBuilder.mapVirtualShard_of_free hnone hi hfree]
        rw [h.length] at hi
        exact h.assigned hnone hi ((h.free_iff hnone hi).mp hfree)

theorem Described.apply (h : Described telemetryErr count ops b)
    (op : BuilderOp ρ κ ε) :
    Described telemetryErr count (ops ++ [op]) (b.apply op) := by
  have hhasher := lastHasher_concat ops op
  cases op with
  | withTracerProvider =>
      exact h.silent rfl (by simp) rfl (by rw [hhasher]; exact h.hasher) rfl
  | withMeterProvider providerErr =>
      cases providerErr with
      | none =>
          exact h.silent rfl (by simp) rfl (by rw [hhasher]; exact h.hasher) rfl
      | some err =>
          have hfault : ¬Faultless count (ops ++ [.withMeterProvider (some err)]) :=
            fun hall => hall.metered err (by simp)
          have hkeep : ((b.withMeterProvider (some err)).virtualShards =
              b.virtualShards) ∧
              (b.withMeterProvider (some err)).hasher = b.hasher ∧
              (b.withMeterProvider (some err)).err ≠ none := by
            cases herr : b.err <;> simp [MeshBuilder.withMeterProvider, herr]
          exact h.failed hkeep.1 (by rw [hhasher]; exact hkeep.2.1.trans h.hasher)
            hkeep.2.2 fun _ => hfault
  | withLogger =>
      exact h.silent rfl (by simp) rfl (by rw [hhasher]; exact h.hasher) rfl
  | withShardHasher hasher =>
      exact h.silent rfl (by simp) rfl (by rw [hhasher]; rfl) rfl
  | mapVirtualShard i r => exact h.mapVirtualShard i r

end Run

theorem newMeshBuilder_described (virtualShardCount : UInt64)
    (telemetryErr : Option (GoError ε)) :
    Described telemetryErr virtualShardCount.toNat ([] : List (BuilderOp ρ κ ε))
      (.newMeshBuilder virtualShardCount telemetryErr) where
  length := by simp [MeshBuilder.newMeshBuilder]
  hasher := rfl
  err := by
    constructor
    · intro h
      exact ⟨h, by simp, by simp [assignments], by simp [assignments],
        by simp [assignments]⟩
    · exact And.left
  mapped := by
    intro _ i r
    simp [MeshBuilder.newMeshBuilder, assignments, List.getElem?_replicate]

/-- After any operations the builder is what they say. -/
theorem applyAll_described (virtualShardCount : UInt64)
    (telemetryErr : Option (GoError ε)) (ops : List (BuilderOp ρ κ ε)) :
    Described telemetryErr virtualShardCount.toNat ops
      ((MeshBuilder.newMeshBuilder virtualShardCount telemetryErr).applyAll ops) := by
  induction ops using List.reverseRecOn with
  | nil => exact newMeshBuilder_described virtualShardCount telemetryErr
  | append_singleton ops op ih =>
      rw [MeshBuilder.applyAll, List.foldl_append]
      exact ih.apply op

/-! ## The loop of `Build` -/

section Build

variable [Named ρ] [DecidableEq ρ]

namespace BuildState

/-- Every name in the map belongs to a replica set seen so far. -/
def NamesSeen (s : BuildState ρ) : Prop :=
  ∀ n r, GoMap.get? s.seenNames n = some r → r ∈ s.virtualShards ∧ name r = n

/-- The replica sets stand in the order of their first virtual shards. -/
def FirstSeenOrder (s : BuildState ρ) : Prop :=
  s.replicaSets.Pairwise fun r r' =>
    s.virtualShards.idxOf r < s.virtualShards.idxOf r'

theorem NamesSeen.add {s s' : BuildState ρ} {index : Nat} {shard : Option ρ}
    (h : s.NamesSeen) (hadd : s.add (ε := ε) index shard = .ok s') :
    s'.NamesSeen := by
  obtain ⟨r, -, -, -, hshards, hnames, -⟩ := add_eq_ok hadd
  intro n r' hget
  rw [hnames, GoMap.get?_set] at hget
  rw [hshards]
  split at hget
  · rename_i hn
    cases hget
    exact ⟨by simp, hn⟩
  · have hold := h n r' hget
    exact ⟨List.mem_append_left _ hold.1, hold.2⟩

theorem FirstSeenOrder.add {s s' : BuildState ρ} {index : Nat}
    {shard : Option ρ} (h : s.FirstSeenOrder) (hs : s.WellFormed)
    (hadd : s.add (ε := ε) index shard = .ok s') : s'.FirstSeenOrder := by
  obtain ⟨r, -, -, -, hshards, -, hcase⟩ := add_eq_ok hadd
  -- Replica sets seen before keep their index.
  have hkeep : ∀ r' ∈ s.replicaSets,
      s'.virtualShards.idxOf r' = s.virtualShards.idxOf r' := by
    intro r' hr'
    rw [hshards, List.idxOf_append_of_mem ((hs.mem_iff r').mp hr')]
  have hold : s.replicaSets.Pairwise fun r r' =>
      s'.virtualShards.idxOf r < s'.virtualShards.idxOf r' := by
    apply h.imp_of_mem
    intro r₁ r₂ h₁ h₂ hlt
    rw [hkeep r₁ h₁, hkeep r₂ h₂]
    exact hlt
  unfold FirstSeenOrder
  rcases hcase with ⟨-, hsets, -⟩ | ⟨hunseen, hsets, -⟩
  · rw [hsets]
    exact hold
  · have hnew : r ∉ s.virtualShards := by
      intro hmem
      rw [(hs.seen_iff r).mpr ((hs.mem_iff r).mpr hmem)] at hunseen
      cases hunseen
    rw [hsets, List.pairwise_append]
    refine ⟨hold, List.pairwise_singleton _ _, ?_⟩
    intro r' hr' last hlast
    rw [List.mem_singleton.mp hlast, hkeep r' hr', hshards,
      List.idxOf_append_of_notMem hnew]
    have hlt := List.idxOf_lt_length_iff.mpr ((hs.mem_iff r').mp hr')
    omega

theorem FirstSeenOrder.addAll {s s' : BuildState ρ}
    {shards : List (Option ρ × Nat)} (h : s.FirstSeenOrder) (hs : s.WellFormed)
    (hadd : s.addAll (ε := ε) shards = .ok s') : s'.FirstSeenOrder := by
  induction shards generalizing s with
  | nil =>
      cases hadd
      exact h
  | cons shard shards ih =>
      obtain ⟨replicaSet, index⟩ := shard
      simp only [BuildState.addAll] at hadd
      split at hadd
      · cases hadd
      · rename_i next hnext
        exact ih (h.add hs hnext) (hs.add hnext) hadd

/-- An iteration fails only on a missing, nameless or ambiguous replica set. -/
theorem add_of_named {s : BuildState ρ} (hseen : s.NamesSeen) (index : Nat)
    {r : ρ} (hblank : isBlank (name r) = false)
    (hname : ∀ r' ∈ s.virtualShards, name r' = name r → r' = r) :
    ∃ s', s.add (ε := ε) index (some r) = .ok s' := by
  have hprevious :
      ¬(GoMap.get? s.seenNames (name r)).any (· ≠ r) = true := by
    cases hget : GoMap.get? s.seenNames (name r) with
    | none => simp
    | some previous =>
        have hold := hseen _ _ hget
        simp [hname previous hold.1 hold.2]
  simp only [add, hblank, Bool.false_eq_true, if_false, if_neg hprevious]
  cases GoMap.get? s.seen r with
  | none => exact ⟨_, rfl⟩
  | some u => exact ⟨_, rfl⟩

theorem addAll_of_named {s : BuildState ρ} {shards : List (Option ρ × Nat)}
    (hseen : s.NamesSeen)
    (hmapped : ∀ shard ∈ shards, ∃ r, shard.1 = some r ∧ isBlank (name r) = false)
    (hname : ∀ r r', (r ∈ s.virtualShards ∨ some r ∈ shards.map Prod.fst) →
      (r' ∈ s.virtualShards ∨ some r' ∈ shards.map Prod.fst) →
      name r = name r' → r = r') :
    ∃ s', s.addAll (ε := ε) shards = .ok s' := by
  induction shards generalizing s with
  | nil => exact ⟨s, rfl⟩
  | cons shard shards ih =>
      obtain ⟨replicaSet, index⟩ := shard
      obtain ⟨r, hr, hblank⟩ := hmapped _ List.mem_cons_self
      cases hr
      have hhead : some r ∈ ((some r, index) :: shards).map Prod.fst := by simp
      obtain ⟨next, hnext⟩ := add_of_named (ε := ε) hseen index hblank
        fun r' hr' => hname r' r (.inl hr') (.inr hhead)
      have hshards : next.virtualShards = s.virtualShards ++ [r] := by
        obtain ⟨r₀, hr₀, -, -, hshards, -, -⟩ := add_eq_ok hnext
        cases hr₀
        exact hshards
      -- What the rest of the loop sees is part of what the loop sees.
      have hpart : ∀ r', (r' ∈ next.virtualShards ∨ some r' ∈ shards.map Prod.fst) →
          (r' ∈ s.virtualShards ∨
            some r' ∈ ((some r, index) :: shards).map Prod.fst) := by
        intro r' hr'
        rw [hshards] at hr'
        rcases hr' with hr' | hr'
        · rcases List.mem_append.mp hr' with hr' | hr'
          · exact .inl hr'
          · exact .inr (by simp [List.mem_singleton.mp hr'])
        · exact .inr (List.mem_cons_of_mem _ hr')
      obtain ⟨s', hs'⟩ := ih (hseen.add hnext)
        (fun shard hshard => hmapped shard (List.mem_cons_of_mem _ hshard))
        fun r₁ r₂ h₁ h₂ => hname r₁ r₂ (hpart r₁ h₁) (hpart r₂ h₂)
      exact ⟨s', by simp only [addAll, hnext, hs']⟩

end BuildState

namespace MeshBuilder

/-- When `Build` succeeds. -/
structure Buildable (b : MeshBuilder ρ κ ε) : Prop where
  err : b.err = none
  nonempty : b.virtualShards ≠ []
  hasher : b.hasher ≠ none
  mapped : none ∉ b.virtualShards
  nonblank : ∀ r, some r ∈ b.virtualShards → isBlank (name r) = false
  name_inj : ∀ r r', some r ∈ b.virtualShards → some r' ∈ b.virtualShards →
    name r = name r' → r = r'

theorem Buildable.build {b : MeshBuilder ρ κ ε} (h : b.Buildable) :
    ∃ mesh, b.build = .ok mesh := by
  obtain ⟨hasher, hhasher⟩ := Option.ne_none_iff_exists'.mp h.hasher
  have hfst : b.virtualShards.zipIdx.map Prod.fst = b.virtualShards :=
    List.zipIdx_map_fst 0 _
  have hadd : ∃ s, (BuildState.empty : BuildState ρ).addAll (ε := ε)
      b.virtualShards.zipIdx = .ok s := by
    apply BuildState.addAll_of_named
    · intro n r hget
      cases hget
    · intro shard hshard
      have hmem : shard.1 ∈ b.virtualShards := by
        rw [← hfst]
        exact List.mem_map_of_mem hshard
      cases hr : shard.1 with
      | none => exact absurd (hr ▸ hmem) h.mapped
      | some r => exact ⟨r, rfl, h.nonblank r (hr ▸ hmem)⟩
    · rw [hfst]
      intro r r' hr hr'
      exact h.name_inj r r' (by simpa [BuildState.empty] using hr)
        (by simpa [BuildState.empty] using hr')
  obtain ⟨s, hs⟩ := hadd
  have hlength : ¬b.virtualShards.length = 0 := by
    simpa using h.nonempty
  unfold MeshBuilder.build
  simp only [h.err, hhasher, dif_neg hlength]
  split
  · rename_i err herr
    rw [hs] at herr
    cases herr
  · exact ⟨_, rfl⟩

/-- A mesh that was built, with the order of its replica sets. -/
theorem build_ok {b : MeshBuilder ρ κ ε} {mesh : Mesh ρ κ}
    (h : b.build = .ok mesh) :
    b.Buildable ∧ mesh.replicaSets.Pairwise fun r r' =>
      mesh.virtualShards.idxOf r < mesh.virtualShards.idxOf r' := by
  obtain ⟨herr, hhasher, hshards⟩ := build_eq_ok h
  have hmem : ∀ r, some r ∈ b.virtualShards ↔ r ∈ mesh.replicaSets := by
    intro r
    rw [← hshards, mesh.mem_iff]
    simp
  constructor
  · refine ⟨herr, ?_, by simp [hhasher], ?_, ?_, ?_⟩
    · rw [← hshards]
      simpa using mesh.nonempty
    · rw [← hshards]
      simp
    · intro r hr
      exact mesh.nonblank r ((hmem r).mp hr)
    · intro r r' hr hr'
      exact mesh.name_inj r ((hmem r).mp hr) r' ((hmem r').mp hr')
  · unfold build at h
    split at h
    · cases h
    · split at h
      · cases h
      · split at h
        · cases h
        · split at h
          · cases h
          · rename_i s hadd
            cases h
            have hempty : (BuildState.empty : BuildState ρ).FirstSeenOrder :=
              List.Pairwise.nil
            exact hempty.addAll BuildState.empty_wellFormed hadd

end MeshBuilder

/-! ## The operations that build a mesh -/

variable {telemetryErr : Option (GoError ε)} {count : Nat}
  {ops : List (BuilderOp ρ κ ε)} {b : MeshBuilder ρ κ ε}

/-- The operations describe a mesh. -/
structure MeshDescribed (count : Nat) (ops : List (BuilderOp ρ κ ε)) : Prop where
  positive : 0 < count
  hasher : lastHasher ops ≠ none
  mapped : ∀ i < count, ∃ k r, UInt64.toNat k = i ∧ (k, some r) ∈ assignments ops
  nonblank : ∀ k r, (k, some r) ∈ assignments ops → isBlank (name r) = false
  name_inj : ∀ k r k' r', (k, some r) ∈ assignments ops →
    (k', some r') ∈ assignments ops → name r = name r' → r = r'

omit [Named ρ] [DecidableEq ρ] in
theorem Described.some_mem (h : Described telemetryErr count ops b)
    (herr : b.err = none) (r : ρ) :
    some r ∈ b.virtualShards ↔ ∃ k, (k, some r) ∈ assignments ops := by
  rw [List.mem_iff_getElem?]
  constructor
  · rintro ⟨i, hi⟩
    obtain ⟨k, -, hk⟩ := (h.mapped herr i r).mp hi
    exact ⟨k, hk⟩
  · rintro ⟨k, hk⟩
    exact ⟨k.toNat, (h.mapped herr _ r).mpr ⟨k, rfl, hk⟩⟩

omit [DecidableEq ρ] in
theorem Described.buildable_iff (h : Described telemetryErr count ops b) :
    b.Buildable ↔
      telemetryErr = none ∧ Faultless count ops ∧ MeshDescribed count ops := by
  constructor
  · intro hb
    obtain ⟨htelemetry, hfault⟩ := h.err.mp hb.err
    refine ⟨htelemetry, hfault, ?_, ?_, ?_, ?_, ?_⟩
    · rw [← h.length]
      exact List.length_pos_iff.mpr hb.nonempty
    · rw [← h.hasher]
      exact hb.hasher
    · intro i hi
      rw [← h.length] at hi
      cases hget : b.virtualShards[i] with
      | none => exact absurd (hget ▸ List.getElem_mem hi) hb.mapped
      | some r =>
          have hsome : b.virtualShards[i]? = some (some r) := by
            rw [List.getElem?_eq_getElem hi, hget]
          obtain ⟨k, hk, hmem⟩ := (h.mapped hb.err i r).mp hsome
          exact ⟨k, r, hk, hmem⟩
    · intro k r hmem
      exact hb.nonblank r ((h.some_mem hb.err r).mpr ⟨k, hmem⟩)
    · intro k r k' r' hmem hmem'
      exact hb.name_inj r r' ((h.some_mem hb.err r).mpr ⟨k, hmem⟩)
        ((h.some_mem hb.err r').mpr ⟨k', hmem'⟩)
  · rintro ⟨htelemetry, hfault, hmesh⟩
    have herr := h.err.mpr ⟨htelemetry, hfault⟩
    have hlength := h.length
    refine ⟨herr, ?_, ?_, ?_, ?_, ?_⟩
    · intro hnil
      rw [hnil] at hlength
      have hpositive := hmesh.positive
      simp at hlength
      omega
    · rw [h.hasher]
      exact hmesh.hasher
    · intro hnone
      obtain ⟨i, hi⟩ := List.mem_iff_getElem?.mp hnone
      have hlt := (List.getElem?_eq_some_iff.mp hi).1
      obtain ⟨k, r, hk, hmem⟩ := hmesh.mapped i (by omega)
      rw [(h.mapped herr i r).mpr ⟨k, hk, hmem⟩] at hi
      cases hi
    · intro r hr
      obtain ⟨k, hk⟩ := (h.some_mem herr r).mp hr
      exact hmesh.nonblank k r hk
    · intro r r' hr hr'
      obtain ⟨k, hk⟩ := (h.some_mem herr r).mp hr
      obtain ⟨k', hk'⟩ := (h.some_mem herr r').mp hr'
      exact hmesh.name_inj k r k' r' hk hk'

/-- The virtual shards of a mesh that was built are those assigned. -/
theorem Described.getElem?_of_build (h : Described telemetryErr count ops b)
    {mesh : Mesh ρ κ} (hmesh : b.build = .ok mesh) (i : UInt64) (r : ρ) :
    mesh.virtualShards[i.toNat]? = some r ↔ (i, some r) ∈ assignments ops := by
  obtain ⟨herr, -, hshards⟩ := MeshBuilder.build_eq_ok hmesh
  have hmapped := h.mapped herr i.toNat r
  rw [← hshards, List.getElem?_map] at hmapped
  constructor
  · intro hget
    obtain ⟨k, hk, hmem⟩ := hmapped.mp (by simp [hget])
    rwa [UInt64.toNat_inj.mp hk] at hmem
  · intro hmem
    simpa using hmapped.mpr ⟨i, rfl, hmem⟩

end Build

end PgMesh.Topology
