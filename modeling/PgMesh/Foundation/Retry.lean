import Mathlib.Data.List.Nodup
import Mathlib.Data.List.Perm.Subperm
import Mathlib.Logic.Function.Iterate

/-!
# Loops that try candidates until one is free

The candidates are `s`, `next s`, `next (next s)`, and so on; each has a key, and a
candidate is free when its key is not used yet.  A loop without a bound is run for
a number of rounds: it ends when all large enough numbers give one result.
-/

namespace PgMesh.Foundation

section FirstFree

variable {σ κ : Type} [DecidableEq κ] (next : σ → σ) (key : σ → κ)

def firstFree (used : List κ) : Nat → σ → Option σ
  | 0, _ => none
  | rounds + 1, s => if key s ∈ used then firstFree used rounds (next s) else some s

variable {next key} {used : List κ}

theorem firstFree_eq_none {rounds : Nat} {s : σ} (h : firstFree next key used rounds s = none) :
    ∀ i < rounds, key (next^[i] s) ∈ used := by
  induction rounds generalizing s with
  | zero => simp
  | succ rounds ih =>
      rw [firstFree] at h
      split at h
      case isTrue hused =>
        intro i hi
        cases i with
        | zero => exact hused
        | succ i => exact ih h i (by omega)
      case isFalse => cases h

theorem firstFree_eq_some {rounds : Nat} {s t : σ}
    (h : firstFree next key used rounds s = some t) :
    key t ∉ used ∧ ∃ i, t = next^[i] s := by
  induction rounds generalizing s with
  | zero => cases h
  | succ rounds ih =>
      rw [firstFree] at h
      split at h
      case isTrue =>
        obtain ⟨hfree, i, hi⟩ := ih h
        exact ⟨hfree, i + 1, hi⟩
      case isFalse hfree =>
        cases h
        exact ⟨hfree, 0, rfl⟩

theorem firstFree_mono {rounds more : Nat} (hle : rounds ≤ more) {s t : σ}
    (h : firstFree next key used rounds s = some t) :
    firstFree next key used more s = some t := by
  induction rounds generalizing s more with
  | zero => cases h
  | succ rounds ih =>
      obtain ⟨more, rfl⟩ := Nat.exists_eq_add_one_of_ne_zero (by omega : more ≠ 0)
      rw [firstFree] at h ⊢
      split
      case isTrue hused =>
        rw [if_pos hused] at h
        exact ih (by omega) h
      case isFalse hfree =>
        rwa [if_neg hfree] at h

/-- Candidates with different keys are more than the used ones, so the loop ends. -/
theorem exists_firstFree (used : List κ) {s : σ}
    (hkeys : Function.Injective fun i => key (next^[i] s)) :
    ∃ t, ∀ rounds, used.length < rounds → firstFree next key used rounds s = some t := by
  have hsome : firstFree next key used (used.length + 1) s ≠ none := by
    intro hnone
    have hused := firstFree_eq_none hnone
    let candidates := (List.range (used.length + 1)).map fun i => key (next^[i] s)
    have hnodup : candidates.Nodup := List.Nodup.map hkeys List.nodup_range
    have hsubset : candidates ⊆ used := by
      intro k hk
      obtain ⟨i, hi, rfl⟩ := List.mem_map.mp hk
      exact hused i (List.mem_range.mp hi)
    have hlength := (List.subperm_of_subset hnodup hsubset).length_le
    simp only [candidates, List.length_map, List.length_range] at hlength
    omega
  obtain ⟨t, ht⟩ := Option.ne_none_iff_exists'.mp hsome
  exact ⟨t, fun rounds hrounds => firstFree_mono hrounds ht⟩

end FirstFree

/-! ## One allocation after another -/

section Allocate

variable {β ν κ : Type} (key : ν → κ)

/-- Each pick is used for the ones that follow. -/
def allocateAll (pick : List κ → β → Option ν) : List κ → List β → Option (List ν)
  | _, [] => some []
  | used, b :: bs => do
      let v ← pick used b
      let vs ← allocateAll pick (key v :: used) bs
      return v :: vs

variable {key} {pick : List κ → β → Option ν}

theorem allocateAll_cons_eq_some {used : List κ} {b : β} {bs : List β} {vs : List ν} :
    allocateAll key pick used (b :: bs) = some vs ↔
      ∃ v rest, pick used b = some v ∧ allocateAll key pick (key v :: used) bs = some rest ∧
        vs = v :: rest := by
  rw [allocateAll]
  simp only [Option.bind_eq_bind, Option.bind_eq_some_iff, Option.pure_def, Option.some.injEq]
  constructor
  · rintro ⟨v, hv, rest, hrest, rfl⟩
    exact ⟨v, rest, hv, hrest, rfl⟩
  · rintro ⟨v, rest, hv, hrest, rfl⟩
    exact ⟨v, hv, rest, hrest, rfl⟩

/-- Free picks have different keys, none of which was used before. -/
theorem allocateAll_fresh (hpick : ∀ used b v, pick used b = some v → key v ∉ used)
    {used : List κ} {bs : List β} {vs : List ν}
    (h : allocateAll key pick used bs = some vs) :
    (vs.map key).Nodup ∧ ∀ v ∈ vs, key v ∉ used := by
  induction bs generalizing used vs with
  | nil =>
      cases h
      simp
  | cons b bs ih =>
      obtain ⟨v, rest, hv, hrest, rfl⟩ := allocateAll_cons_eq_some.mp h
      obtain ⟨hnodup, hfree⟩ := ih hrest
      constructor
      · rw [List.map_cons, List.nodup_cons]
        refine ⟨?_, hnodup⟩
        intro hmem
        obtain ⟨w, hw, hkey⟩ := List.mem_map.mp hmem
        exact hfree w hw (hkey ▸ List.mem_cons_self)
      · rw [List.forall_mem_cons]
        refine ⟨hpick used b v hv, ?_⟩
        intro w hw hused
        exact hfree w hw (List.mem_cons_of_mem _ hused)

theorem length_allocateAll {used : List κ} {bs : List β} {vs : List ν}
    (h : allocateAll key pick used bs = some vs) : vs.length = bs.length := by
  induction bs generalizing used vs with
  | nil =>
      cases h
      rfl
  | cons b bs ih =>
      obtain ⟨v, rest, hv, hrest, rfl⟩ := allocateAll_cons_eq_some.mp h
      rw [List.length_cons, List.length_cons, ih hrest]

/-- What the picks satisfy is a matter of the requests, if each single one is. -/
theorem allocateAll_forall_iff {P : β → Prop} {Q : ν → Prop}
    (hpick : ∀ used b v, pick used b = some v → (Q v ↔ P b)) {used : List κ} {bs : List β}
    {vs : List ν} (h : allocateAll key pick used bs = some vs) :
    (∀ v ∈ vs, Q v) ↔ ∀ b ∈ bs, P b := by
  induction bs generalizing used vs with
  | nil =>
      cases h
      simp
  | cons b bs ih =>
      obtain ⟨v, rest, hv, hrest, rfl⟩ := allocateAll_cons_eq_some.mp h
      rw [List.forall_mem_cons, List.forall_mem_cons, hpick used b v hv, ih hrest]

/-- Loops that end make an allocation that ends. -/
theorem exists_allocateAll {pick : Nat → List κ → β → Option ν}
    (hpick : ∀ used b, ∃ v, ∀ rounds, used.length < rounds → pick rounds used b = some v)
    (used : List κ) (bs : List β) :
    ∃ vs, ∀ rounds, used.length + bs.length < rounds →
      allocateAll key (pick rounds) used bs = some vs := by
  induction bs generalizing used with
  | nil => exact ⟨[], fun _ _ => rfl⟩
  | cons b bs ih =>
      obtain ⟨v, hv⟩ := hpick used b
      obtain ⟨vs, hvs⟩ := ih (key v :: used)
      refine ⟨v :: vs, fun rounds hrounds => ?_⟩
      rw [List.length_cons] at hrounds
      refine allocateAll_cons_eq_some.mpr ⟨v, vs, hv rounds (by omega), hvs rounds ?_, rfl⟩
      rw [List.length_cons]
      omega

end Allocate

end PgMesh.Foundation
