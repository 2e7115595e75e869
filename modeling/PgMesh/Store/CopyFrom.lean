import PgMesh.Foundation.FanOut
import PgMesh.Store.Grouping
import Mathlib.Algebra.BigOperators.Group.List.Basic
import Mathlib.Algebra.GroupWithZero.Nat

/-!
# The synchronous COPY

The generated method of a routed `:copyfrom` query executes one COPY for each
populated replica set, all at once, and joins their counts and errors.
-/

namespace PgMesh.Store

open PgMesh.Foundation
open PgMesh.Topology

variable {ρ κ A Item α ε : Type} [Named ρ] [Inhabited κ]

/-- What one physical COPY returned. -/
structure CopyResult (ε : Type) where
  count : Int64
  err : Option (GoError ε)

/-- The method up to the point where it starts the physical COPYs. -/
def copyGroups (s : MeshStore ρ κ A) (q : CopyQuery Item A α)
    (arg : List Item) (tx : Bool) :
    Except (GoError ε) (List (CopyShardGroup ρ α)) :=
  match groupRows s q q.methodName [] arg.zipIdx with
  | .error err => .error err
  | .ok groupsByName =>
      let groups := populated s.mesh groupsByName
      if tx && decide (groups.length > 1) then .error errCrossShardTransaction
      else .ok groups

/-- The method once all physical COPYs have returned. -/
def joinCopyResults (q : CopyQuery Item A α)
    (groups : List (CopyShardGroup ρ α)) (copyResults : List (CopyResult ε)) :
    Int64 × Option (GoError ε) :=
  let copyErrors := (groups.zip copyResults).filterMap fun (group, result) =>
    result.err.map (shardError q.methodName group.shard.replicaSetName)
  match GoError.join copyErrors with
  | some err => (0, some err)
  | none =>
      (copyResults.foldl (fun count result => count + result.count) 0, none)

/--
The whole method.  `completions` lists the physical COPYs in the order in
which they return, with what they return.
-/
def copyFrom (s : MeshStore ρ κ A) (q : CopyQuery Item A α) (arg : List Item)
    (tx : Bool) (completions : List (Nat × CopyResult ε)) :
    Int64 × Option (GoError ε) :=
  match copyGroups s q arg tx with
  | .error err => (0, some err)
  | .ok groups =>
      if groups.length = 0 then (0, none)
      else
        joinCopyResults q groups
          (fill (List.replicate groups.length ⟨0, none⟩) completions)

/-! ## Counting -/

theorem foldl_count_eq (results : List (CopyResult ε)) (lengths : List Nat)
    (h : results.map CopyResult.count = lengths.map Int64.ofNat)
    (start : Nat) :
    results.foldl (fun count result => count + result.count)
        (Int64.ofNat start) =
      Int64.ofNat (start + lengths.sum) := by
  induction results generalizing lengths start with
  | nil =>
      cases lengths with
      | nil => simp
      | cons length lengths => simp at h
  | cons result results ih =>
      cases lengths with
      | nil => simp at h
      | cons length lengths =>
          obtain ⟨hhead, htail⟩ := List.cons.inj h
          rw [List.foldl_cons, hhead, ← Int64.ofNat_add, ih lengths htail,
            List.sum_cons, Nat.add_assoc]

theorem sum_indicator (names : List String) (target : String) :
    (names.map fun n => if target = n then 1 else 0).sum = names.count target := by
  induction names with
  | nil => rfl
  | cons n names ih =>
      rw [List.map_cons, List.sum_cons, ih, List.count_cons]
      by_cases h : target = n
      · simp [h]
        omega
      · simp [h, Ne.symm h]

theorem rowsFor_cons (s : MeshStore ρ κ A) (q : CopyQuery Item A α)
    (target : String) (item : Item) (items : List Item) :
    (rowsFor s q target (item :: items)).length =
      (if s.targetName? (q.route item) = some target then 1 else 0) +
        (rowsFor s q target items).length := by
  unfold rowsFor
  by_cases h : s.targetName? (q.route item) = some target
  · simp [h]
    omega
  · simp [h]

/-- Every item is in the rows of exactly one replica set. -/
theorem sum_rowsFor (s : MeshStore ρ κ A) (q : CopyQuery Item A α)
    (items : List Item) (h : ∀ item ∈ items, s.targetName? (q.route item) ≠ none) :
    (s.mesh.replicaSets.map fun r => (rowsFor s q (name r) items).length).sum =
      items.length := by
  induction items with
  | nil => simp [rowsFor]
  | cons item items ih =>
      have hrest := ih fun other hother => h other (List.mem_cons_of_mem _ hother)
      obtain ⟨target, htarget⟩ := Option.ne_none_iff_exists'.mp
        (h item List.mem_cons_self)
      obtain ⟨r, hr, rfl⟩ := Option.map_eq_some_iff.mp htarget
      have hmem : name r ∈ s.mesh.replicaSets.map name :=
        List.mem_map_of_mem (Mesh.target?_mem hr)
      have hone := sum_indicator (s.mesh.replicaSets.map name) (name r)
      rw [List.count_eq_one_of_mem s.mesh.names_nodup hmem, List.map_map] at hone
      simp only [rowsFor_cons, htarget, Option.some.injEq, List.sum_map_add,
        hrest, List.length_cons]
      rw [show (s.mesh.replicaSets.map fun r' =>
        if name r = name r' then 1 else 0).sum = 1 from hone]
      omega

theorem handedOver_length (s : MeshStore ρ κ A) (q : CopyQuery Item A α)
    (items : List Item) (h : ∀ item ∈ items, s.targetName? (q.route item) ≠ none) :
    ((handedOver s q items).map fun entry => entry.2.length).sum =
      items.length := by
  rw [← sum_rowsFor s q items h]
  unfold handedOver
  generalize s.mesh.replicaSets = sets
  induction sets with
  | nil => rfl
  | cons r sets ih =>
      rw [List.filterMap_cons, List.map_cons, List.sum_cons, ← ih]
      by_cases hnil : rowsFor s q (name r) items = []
      · simp [hnil]
      · simp [hnil]

/-! ## The whole method -/

section Method

variable {s : MeshStore ρ κ A} {q : CopyQuery Item A α} {arg : List Item}

theorem copyFrom_of_unresolved (h : ∃ item ∈ arg, s.targetName? (q.route item) = none) :
    ∃ err, copyGroups (ε := ε) s q arg false = .error err ∧
      ∀ completions, copyFrom s q arg false completions = (0, some err) := by
  obtain ⟨err, herr⟩ := groupRows_of_unresolved (ε := ε) q.methodName h
  have hgroups : copyGroups (ε := ε) s q arg false = .error err := by
    simp [copyGroups, herr]
  refine ⟨err, hgroups, ?_⟩
  intro completions
  simp [copyFrom, hgroups]

theorem copyGroups_of_targets (h : ∀ item ∈ arg, s.targetName? (q.route item) ≠ none) :
    ∃ groups, copyGroups (ε := ε) s q arg false = .ok groups ∧
      groups.map (fun g => (g.shard.replicaSet, g.args)) = handedOver s q arg := by
  obtain ⟨groupsByName, hrows⟩ := groupRows_of_targets (ε := ε) q.methodName h
  refine ⟨populated s.mesh groupsByName, ?_, populated_eq (groupRows_ok hrows).1⟩
  simp [copyGroups, hrows]

/-- When every physical COPY counts its rows, the method counts the input. -/
theorem copyFrom_of_success {groups : List (CopyShardGroup ρ α)}
    (h : ∀ item ∈ arg, s.targetName? (q.route item) ≠ none)
    (hok : copyGroups (ε := ε) s q arg false = .ok groups)
    (hgroups : groups.map (fun g => (g.shard.replicaSet, g.args)) =
      handedOver s q arg)
    {completions : List (Nat × CopyResult ε)}
    (hall : Completes (groups.map fun g => ⟨Int64.ofNat g.args.length, none⟩)
      completions) :
    copyFrom s q arg false completions = (Int64.ofNat arg.length, none) := by
  have htotal : (groups.map (·.args.length)).sum = arg.length := by
    rw [← handedOver_length s q arg h, ← hgroups, List.map_map]
    rfl
  unfold copyFrom
  rw [hok]
  by_cases hnil : groups = []
  · rw [hnil] at htotal
    simp [hnil, ← htotal]
  · have hfill : fill (List.replicate groups.length ⟨0, none⟩) completions =
        groups.map fun g => (⟨Int64.ofNat g.args.length, none⟩ : CopyResult ε) :=
      fill_of_completes hall (by simp)
    have hcount := foldl_count_eq
      (groups.map fun g => (⟨Int64.ofNat g.args.length, none⟩ : CopyResult ε))
      (groups.map (·.args.length)) (by simp [Function.comp_def]) 0
    have herrors : (groups.zip (groups.map fun g =>
        (⟨Int64.ofNat g.args.length, none⟩ : CopyResult ε))).filterMap
          (fun x => x.2.err.map (shardError q.methodName x.1.shard.replicaSetName)) = [] := by
      apply List.filterMap_eq_nil_iff.mpr
      intro pair hpair
      obtain ⟨group, -, heq⟩ := List.mem_map.mp (List.of_mem_zip hpair).2
      rw [← heq]
      rfl
    simp only [List.length_eq_zero_iff, if_neg hnil, hfill, joinCopyResults, herrors,
      GoError.join_nil]
    rw [htotal, Nat.zero_add] at hcount
    exact congrArg (·, none) hcount

end Method

end PgMesh.Store
