import PgMesh.Topology.Builder
import Mathlib.Data.Int.ModEq

/-!
# Hashing integer shard keys

`NewModuloShardHasher` accepts keys of every integer type.  A negative key is
hashed through its magnitude, which is computed without leaving the range of
the key type, and the result is the Euclidean remainder.
-/

namespace PgMesh.Topology

open PgMesh.Foundation

variable {ρ ρ' ε : Type} [Named ρ] [Named ρ']

/-- An integer type of Go.  The types `int` and `uint` have one of the widths. -/
structure IntegerShardKey where
  signed : Bool
  width : Nat
  supported : width ∈ [8, 16, 32, 64]

namespace IntegerShardKey

variable (t : IntegerShardKey)

abbrev Value := BitVec t.width

/-- The integer that the bits of a value stand for. -/
def toInt (key : t.Value) : Int := if t.signed then key.toInt else key.toNat

/-- The comparison `key < 0`. -/
def isNegative (key : t.Value) : Bool := t.signed && key.slt 0#t.width

/-- The conversion `uint64(key)`, which extends the sign of a signed value. -/
def uint64 (key : t.Value) : UInt64 :=
  .ofBitVec (if t.signed then key.signExtend 64 else key.setWidth 64)

end IntegerShardKey

/-- The method `Hash` of `moduloShardHasher`. -/
def moduloShardHasher (t : IntegerShardKey) (virtualShardCount : UInt64)
    (key : t.Value) : UInt64 :=
  if t.isNegative key then
    let magnitudeRemainder := (t.uint64 (-(key + 1#t.width)) + 1) % virtualShardCount
    if magnitudeRemainder = 0 then 0 else virtualShardCount - magnitudeRemainder
  else t.uint64 key % virtualShardCount

/-- The result is `none` when the function panics. -/
def newModuloShardHasher (t : IntegerShardKey) (virtualShardCount : UInt64) :
    Option (t.Value → UInt64) :=
  if virtualShardCount = 0 then none else some (moduloShardHasher t virtualShardCount)

namespace IntegerShardKey

variable {t : IntegerShardKey} {key : t.Value}

theorem width_le (t : IntegerShardKey) : t.width ≤ 64 := by
  have h := t.supported
  simp only [List.mem_cons, List.not_mem_nil, or_false] at h
  omega

theorem isNegative_iff : t.isNegative key = true ↔ t.toInt key < 0 := by
  unfold isNegative toInt
  cases t.signed with
  | true => simp [BitVec.slt_iff_toInt_lt]
  | false => simp

/-- A value that is not negative keeps its integer. -/
theorem toNat_uint64 (h : 0 ≤ t.toInt key) : ((t.uint64 key).toNat : Int) = t.toInt key := by
  unfold toInt at h ⊢
  unfold uint64
  cases hsigned : t.signed with
  | true =>
      rw [hsigned] at h
      simp only [if_true] at h ⊢
      have hextend := BitVec.toInt_signExtend_of_le (x := key) t.width_le
      rw [BitVec.toInt_eq_toNat_cond] at hextend
      have hlt := (key.signExtend 64).isLt
      change ((key.signExtend 64).toNat : Int) = key.toInt
      split at hextend
      · exact hextend
      · omega
  | false =>
      have hlt : key.toNat < 2 ^ 64 :=
        lt_of_lt_of_le key.isLt (Nat.pow_le_pow_right (by decide) t.width_le)
      change ((key.setWidth 64).toNat : Int) = key.toNat
      rw [BitVec.toNat_setWidth, Nat.mod_eq_of_lt hlt]

/-- The negation of `key + 1` does not overflow, also for the least value. -/
theorem toInt_neg_succ (h : t.toInt key < 0) :
    t.toInt (-(key + 1#t.width)) = -t.toInt key - 1 := by
  have hnot : -(key + 1#t.width) = ~~~key := by
    rw [BitVec.not_eq_neg_add, BitVec.neg_add]
  rw [hnot]
  unfold toInt at h ⊢
  cases hsigned : t.signed with
  | true =>
      rw [hsigned] at h
      simp only [if_true] at h ⊢
      have hlt := key.isLt
      rw [BitVec.toInt_eq_toNat_cond] at h ⊢
      rw [BitVec.toInt_eq_toNat_cond, BitVec.toNat_not]
      split at h
      · omega
      · rename_i hhalf
        rw [if_neg hhalf, if_pos (by omega)]
        omega
  | false =>
      rw [hsigned] at h
      simp at h
      omega

theorem neg_le (t : IntegerShardKey) (key : t.Value) : -t.toInt key ≤ 2 ^ 63 := by
  unfold toInt
  have hpow : 2 ^ t.width ≤ 2 ^ 64 := Nat.pow_le_pow_right (by decide) t.width_le
  cases t.signed with
  | true =>
      simp only [if_true]
      rw [BitVec.toInt_eq_toNat_cond]
      split <;> omega
  | false =>
      simp only [Bool.false_eq_true, if_false]
      omega

/-- The magnitude of a negative key, at most `2 ^ 63`, is computed exactly. -/
theorem toNat_magnitude (h : t.toInt key < 0) :
    ((t.uint64 (-(key + 1#t.width)) + 1).toNat : Int) = -t.toInt key := by
  have hsucc := toInt_neg_succ h
  have hpred : ((t.uint64 (-(key + 1#t.width))).toNat : Int) =
      t.toInt (-(key + 1#t.width)) := toNat_uint64 (by omega)
  have hbound := t.neg_le key
  rw [UInt64.toNat_add, show (1 : UInt64).toNat = 1 from rfl, Nat.mod_eq_of_lt (by omega)]
  omega

end IntegerShardKey

theorem toNat_moduloShardHasher (t : IntegerShardKey) {virtualShardCount : UInt64}
    (hcount : 0 < virtualShardCount) (key : t.Value) :
    ((moduloShardHasher t virtualShardCount key).toNat : Int) =
      t.toInt key % virtualShardCount.toNat := by
  have hpos : 0 < virtualShardCount.toNat := hcount
  unfold moduloShardHasher
  by_cases hneg : t.toInt key < 0
  · rw [if_pos (IntegerShardKey.isNegative_iff.mpr hneg)]
    have hmagnitude := IntegerShardKey.toNat_magnitude hneg
    generalize t.uint64 (-(key + 1#t.width)) + 1 = magnitude at hmagnitude
    have hkey : t.toInt key = -(magnitude.toNat : Int) := by omega
    have hremainder : (magnitude % virtualShardCount).toNat =
        magnitude.toNat % virtualShardCount.toNat := UInt64.toNat_mod _ _
    have hlt := Nat.mod_lt magnitude.toNat hpos
    rw [hkey, Int.neg_emod]
    by_cases hzero : magnitude % virtualShardCount = 0
    · rw [hzero] at hremainder
      rw [if_pos hzero, if_pos]
      · rfl
      · exact Int.natCast_dvd_natCast.mpr (Nat.dvd_of_mod_eq_zero hremainder.symm)
    · have hne : magnitude.toNat % virtualShardCount.toNat ≠ 0 := by
        intro h
        apply hzero
        apply UInt64.toNat_inj.mp
        rw [hremainder, h]
        rfl
      have hle : magnitude % virtualShardCount ≤ virtualShardCount := by
        rw [UInt64.le_iff_toNat_le, hremainder]
        omega
      rw [if_neg hzero, if_neg, UInt64.toNat_sub_of_le _ _ hle, hremainder]
      · simp only [Int.natAbs_natCast]
        omega
      · intro hdvd
        exact hne (Nat.mod_eq_zero_of_dvd (Int.natCast_dvd_natCast.mp hdvd))
  · rw [if_neg (by rw [IntegerShardKey.isNegative_iff]; exact hneg), UInt64.toNat_mod,
      Int.natCast_mod, IntegerShardKey.toNat_uint64 (by omega)]

theorem Mesh.resolve_of_lt {κ : Type} {mesh : Mesh ρ κ} {key : κ}
    (h : (mesh.hasher key).toNat < mesh.virtualShards.length) :
    ∃ shard, mesh.resolve (ε := ε) key = .ok shard ∧
      shard.virtualShardIndex = mesh.hasher key := by
  refine ⟨⟨mesh.hasher key, mesh.virtualShards[(mesh.hasher key).toNat]⟩, ?_, rfl⟩
  simp only [resolve, List.getElem?_eq_getElem h]

theorem moduloShardHasher_lt (t : IntegerShardKey) {virtualShardCount : UInt64}
    (hcount : 0 < virtualShardCount) (key : t.Value) :
    (moduloShardHasher t virtualShardCount key).toNat < virtualShardCount.toNat := by
  have hpos : 0 < virtualShardCount.toNat := hcount
  have hhash := toNat_moduloShardHasher t hcount key
  have hlt := Int.emod_lt_of_pos (t.toInt key) (Int.natCast_pos.mpr hpos)
  omega

theorem newModuloShardHasher_eq_some {t : IntegerShardKey} {virtualShardCount : UInt64}
    {hasher : t.Value → UInt64}
    (h : newModuloShardHasher t virtualShardCount = some hasher) :
    0 < virtualShardCount ∧ hasher = moduloShardHasher t virtualShardCount := by
  unfold newModuloShardHasher at h
  split at h
  · cases h
  · rename_i hne
    cases h
    refine ⟨?_, rfl⟩
    rw [UInt64.lt_iff_toNat_lt]
    have htoNat : virtualShardCount.toNat ≠ 0 := by
      intro hzero
      exact hne (UInt64.toNat_inj.mp hzero)
    exact Nat.pos_of_ne_zero htoNat

/--
A hasher exists for every count but zero and gives the Euclidean remainder of
every key.  A mesh of that many virtual shards therefore resolves every key,
and keys of two types go to the same virtual shard exactly when they are
congruent.
-/
theorem modulo_hashing_is_euclidean (virtualShardCount : UInt64)
    (hcount : 0 < virtualShardCount) :
    (∀ (t : IntegerShardKey) (key : t.Value), ∃ hasher,
      newModuloShardHasher t virtualShardCount = some hasher ∧
      ((hasher key).toNat : Int) = t.toInt key % virtualShardCount.toNat) ∧
    ∀ (t t' : IntegerShardKey) (mesh : Mesh ρ t.Value) (mesh' : Mesh ρ' t'.Value),
      newModuloShardHasher t virtualShardCount = some mesh.hasher →
      newModuloShardHasher t' virtualShardCount = some mesh'.hasher →
      mesh.virtualShards.length = virtualShardCount.toNat →
      mesh'.virtualShards.length = virtualShardCount.toNat →
      ∀ (key : t.Value) (key' : t'.Value), ∃ shard shard',
        mesh.resolve (ε := ε) key = .ok shard ∧
        mesh'.resolve (ε := ε) key' = .ok shard' ∧
        (shard.virtualShardIndex = shard'.virtualShardIndex ↔
          t.toInt key ≡ t'.toInt key' [ZMOD virtualShardCount.toNat]) := by
  constructor
  · intro t key
    refine ⟨moduloShardHasher t virtualShardCount, ?_, toNat_moduloShardHasher t hcount key⟩
    have hne : virtualShardCount ≠ 0 := by
      rintro rfl
      exact absurd hcount (by decide)
    rw [newModuloShardHasher, if_neg hne]
  · intro t t' mesh mesh' hmesh hmesh' hlength hlength' key key'
    have hhasher := (newModuloShardHasher_eq_some hmesh).2
    have hhasher' := (newModuloShardHasher_eq_some hmesh').2
    have hlt : (mesh.hasher key).toNat < mesh.virtualShards.length := by
      rw [hhasher, hlength]
      exact moduloShardHasher_lt t hcount key
    have hlt' : (mesh'.hasher key').toNat < mesh'.virtualShards.length := by
      rw [hhasher', hlength']
      exact moduloShardHasher_lt t' hcount key'
    obtain ⟨shard, hresolve, hindex⟩ := Mesh.resolve_of_lt (ε := ε) hlt
    obtain ⟨shard', hresolve', hindex'⟩ := Mesh.resolve_of_lt (ε := ε) hlt'
    refine ⟨shard, shard', hresolve, hresolve', ?_⟩
    rw [hindex, hindex', hhasher, hhasher', ← UInt64.toNat_inj, ← Int.natCast_inj,
      toNat_moduloShardHasher t hcount, toNat_moduloShardHasher t' hcount]
    rfl

/-! ## Three virtual shards -/

def int8 : IntegerShardKey := ⟨true, 8, by decide⟩

def uint64 : IntegerShardKey := ⟨false, 64, by decide⟩

def threeShards (t : IntegerShardKey) : Mesh Site t.Value where
  virtualShards := [.east, .west, .east]
  replicaSets := twoSites.replicaSets
  hasher := moduloShardHasher t 3
  nonempty := List.cons_ne_nil _ _
  nodup := twoSites.nodup
  mem_iff r := by cases r <;> simp [twoSites]
  name_inj := twoSites.name_inj
  nonblank := twoSites.nonblank

/-- The least key of type `int8` goes where the key 1 of type `uint64` goes. -/
theorem modulo_hashing_is_euclidean_int8 :
    int8.toInt (BitVec.intMin 8) = -128 ∧ uint64.toInt 1#64 = 1 ∧
    ∃ shard shard', (threeShards int8).resolve (ε := Empty) (BitVec.intMin 8) = .ok shard ∧
      (threeShards uint64).resolve (ε := Empty) 1#64 = .ok shard' ∧
      shard.virtualShardIndex = shard'.virtualShardIndex := by
  refine ⟨rfl, rfl, ?_⟩
  obtain ⟨shard, shard', hshard, hshard', hiff⟩ :=
    (modulo_hashing_is_euclidean 3 (by decide)).2 int8 uint64 (threeShards int8)
      (threeShards uint64) rfl rfl rfl rfl (BitVec.intMin 8) 1#64
  exact ⟨shard, shard', hshard, hshard', hiff.mpr (by decide)⟩

end PgMesh.Topology
