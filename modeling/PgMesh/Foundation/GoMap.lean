import Mathlib.Data.List.Nodup
import Mathlib.Tactic.Tauto

/-!
# Go maps

A map is the list of its entries, in insertion order.  Keys are compared with
`==`, which is symmetric and transitive but need not be reflexive: a map with
floating-point keys never finds a key that is not a number.
-/

namespace PgMesh.Foundation

variable {κ ν : Type} [BEq κ]

/-- A map from `κ` to `ν`; the zero value `nil` reads like the empty map. -/
abbrev GoMap (κ ν : Type) := List (κ × ν)

namespace GoMap

def get? : GoMap κ ν → κ → Option ν
  | [], _ => none
  | (k', v) :: m, k => if k' == k then some v else get? m k

/-- `m[k] = v`. -/
def set : GoMap κ ν → κ → ν → GoMap κ ν
  | [], k, v => [(k, v)]
  | (k', v') :: m, k, v =>
      if k' == k then (k', v) :: m else (k', v') :: set m k v

/-- `m[k]`, which is the zero value when the key is missing. -/
def getD (m : GoMap κ ν) (k : κ) (zero : ν) : ν := (get? m k).getD zero

@[simp] theorem get?_nil (k : κ) : get? ([] : GoMap κ ν) k = none := rfl

variable [PartialEquivBEq κ]

theorem get?_set_of_beq (m : GoMap κ ν) {k k' : κ} (v : ν)
    (h : (k == k') = true) : get? (set m k v) k' = some v := by
  induction m with
  | nil => simp [set, get?, h]
  | cons entry m ih =>
      obtain ⟨k₀, v₀⟩ := entry
      by_cases h₀ : (k₀ == k) = true
      · have hk' : (k₀ == k') = true := PartialEquivBEq.trans h₀ h
        simp [set, get?, h₀, hk']
      · have hk' : ¬(k₀ == k') = true := by
          intro hk'
          apply h₀
          exact PartialEquivBEq.trans hk' (PartialEquivBEq.symm h)
        simp only [set, if_neg h₀, get?, if_neg hk']
        exact ih

theorem get?_set_of_not_beq (m : GoMap κ ν) {k k' : κ} (v : ν)
    (h : ¬(k == k') = true) : get? (set m k v) k' = get? m k' := by
  induction m with
  | nil => simp [set, get?, h]
  | cons entry m ih =>
      obtain ⟨k₀, v₀⟩ := entry
      by_cases h₀ : (k₀ == k) = true
      · have hk' : ¬(k₀ == k') = true := by
          intro hk'
          apply h
          exact PartialEquivBEq.trans (PartialEquivBEq.symm h₀) hk'
        simp only [set, if_pos h₀, get?, if_neg hk']
      · simp only [set, if_neg h₀, get?, ih]

theorem get?_congr (m : GoMap κ ν) {k k' : κ} (h : (k == k') = true) :
    get? m k = get? m k' := by
  induction m with
  | nil => rfl
  | cons entry m ih =>
      have hsame : (entry.1 == k) = (entry.1 == k') := by
        rw [Bool.eq_iff_iff]
        constructor
        · intro hk
          exact PartialEquivBEq.trans hk h
        · intro hk'
          exact PartialEquivBEq.trans hk' (PartialEquivBEq.symm h)
      simp only [get?, hsame, ih]

theorem getD_set (m : GoMap κ ν) (k k' : κ) (v zero : ν) :
    getD (set m k v) k' zero = if k == k' then v else getD m k' zero := by
  unfold getD
  split
  · rename_i h
    rw [get?_set_of_beq m v h]
    rfl
  · rename_i h
    rw [get?_set_of_not_beq m v h]

theorem isSome_get?_set (m : GoMap κ ν) (k k' : κ) (v : ν) :
    (get? (set m k v) k').isSome = (k == k' || (get? m k').isSome) := by
  by_cases h : (k == k') = true
  · rw [get?_set_of_beq m v h]
    simp [h]
  · rw [get?_set_of_not_beq m v h]
    simp [h]

end GoMap

section Lawful

variable {κ ν : Type} [DecidableEq κ]

theorem GoMap.get?_set (m : GoMap κ ν) (k k' : κ) (v : ν) :
    GoMap.get? (GoMap.set m k v) k' =
      if k = k' then some v else GoMap.get? m k' := by
  by_cases h : k = k'
  · rw [if_pos h]
    exact GoMap.get?_set_of_beq m v (by simpa using h)
  · rw [if_neg h]
    exact GoMap.get?_set_of_not_beq m v (by simpa using h)

theorem GoMap.mem_keys_set (m : GoMap κ ν) (k k' : κ) (v : ν) :
    k' ∈ (GoMap.set m k v).map Prod.fst ↔ k' = k ∨ k' ∈ m.map Prod.fst := by
  induction m with
  | nil => simp [GoMap.set]
  | cons entry m ih =>
      obtain ⟨k₀, v₀⟩ := entry
      by_cases h : k₀ = k
      · simp [GoMap.set, h]
      · simp only [GoMap.set, beq_iff_eq, if_neg h, List.map_cons, List.mem_cons, ih]
        tauto

theorem GoMap.nodup_keys_set {m : GoMap κ ν} (h : (m.map Prod.fst).Nodup) (k : κ)
    (v : ν) : ((GoMap.set m k v).map Prod.fst).Nodup := by
  induction m with
  | nil => simp [GoMap.set]
  | cons entry m ih =>
      obtain ⟨k₀, v₀⟩ := entry
      obtain ⟨hnot, hrest⟩ := List.nodup_cons.mp h
      by_cases hk : k₀ = k
      · simpa [GoMap.set, hk] using h
      · simp only [GoMap.set, beq_iff_eq, if_neg hk, List.map_cons, List.nodup_cons]
        refine ⟨?_, ih hrest⟩
        rw [GoMap.mem_keys_set]
        rintro (hsame | hmem)
        · exact hk hsame
        · exact hnot hmem

theorem GoMap.mem_keys_foldl_set (keys : List κ) (m : GoMap κ ν) (v : ν) (k : κ) :
    k ∈ (keys.foldl (fun m key => GoMap.set m key v) m).map Prod.fst ↔
      k ∈ keys ∨ k ∈ m.map Prod.fst := by
  induction keys generalizing m with
  | nil => simp
  | cons key keys ih =>
      rw [List.foldl_cons, ih, GoMap.mem_keys_set, List.mem_cons]
      exact or_left_comm.trans or_assoc.symm

theorem GoMap.nodup_keys_foldl_set {m : GoMap κ ν} (h : (m.map Prod.fst).Nodup)
    (keys : List κ) (v : ν) :
    ((keys.foldl (fun m key => GoMap.set m key v) m).map Prod.fst).Nodup := by
  induction keys generalizing m with
  | nil => exact h
  | cons key keys ih => exact ih (GoMap.nodup_keys_set h key v)

/-- Keys that a loop finds missing and then adds, one after another, are distinct. -/
theorem GoMap.nodup_cons_of_missing {m : GoMap κ ν} {k : κ} {v : ν} {keys : List κ}
    (hk : GoMap.get? m k = none) (hnodup : keys.Nodup)
    (hkeys : ∀ k' ∈ keys, GoMap.get? (GoMap.set m k v) k' = none) :
    (k :: keys).Nodup ∧ ∀ k' ∈ k :: keys, GoMap.get? m k' = none := by
  have hother : ∀ k' ∈ keys, k ≠ k' ∧ GoMap.get? m k' = none := by
    intro k' hmem
    have hnone := hkeys k' hmem
    rw [GoMap.get?_set] at hnone
    split at hnone
    · cases hnone
    · rename_i hne
      exact ⟨hne, hnone⟩
  constructor
  · rw [List.nodup_cons]
    exact ⟨fun hmem => (hother k hmem).1 rfl, hnodup⟩
  · intro k' hmem
    rcases List.mem_cons.mp hmem with rfl | hmem
    · exact hk
    · exact (hother k' hmem).2

/-- A key that occurs once is found with its own value. -/
theorem GoMap.get?_of_mem {m : GoMap κ ν} {k : κ} {v : ν}
    (hnodup : (m.map Prod.fst).Nodup) (hmem : (k, v) ∈ m) :
    GoMap.get? m k = some v := by
  induction m with
  | nil => cases hmem
  | cons entry m ih =>
      obtain ⟨k₀, v₀⟩ := entry
      rw [List.map_cons, List.nodup_cons] at hnodup
      rcases List.mem_cons.mp hmem with hhead | htail
      · cases hhead
        simp [GoMap.get?]
      · have hne : k₀ ≠ k := by
          intro hsame
          apply hnodup.1
          exact List.mem_map.mpr ⟨(k, v), htail, hsame.symm⟩
        simpa [GoMap.get?, hne] using ih hnodup.2 htail

theorem GoMap.mem_of_get? {m : GoMap κ ν} {k : κ} {v : ν}
    (h : GoMap.get? m k = some v) : (k, v) ∈ m := by
  induction m with
  | nil => cases h
  | cons entry m ih =>
      obtain ⟨k₀, v₀⟩ := entry
      unfold GoMap.get? at h
      split at h
      · rename_i hsame
        cases h
        rw [eq_of_beq hsame]
        exact List.mem_cons_self
      · exact List.mem_cons_of_mem _ (ih h)

theorem GoMap.isSome_get? {m : GoMap κ ν} {k : κ} :
    (GoMap.get? m k).isSome = true ↔ k ∈ m.map Prod.fst := by
  induction m with
  | nil => simp
  | cons entry m ih =>
      by_cases h : entry.1 = k
      · simp [GoMap.get?, h]
      · simp only [GoMap.get?, beq_iff_eq, if_neg h, ih, List.map_cons, List.mem_cons]
        constructor
        · exact Or.inr
        · rintro (hsame | hmem)
          · exact absurd hsame.symm h
          · exact hmem

/-- A key is found with a value that all of its entries have. -/
theorem GoMap.get?_of_unique {m : GoMap κ ν} {k : κ} {v : ν} (hmem : (k, v) ∈ m)
    (hunique : ∀ v', (k, v') ∈ m → v' = v) : GoMap.get? m k = some v := by
  have hkey : k ∈ m.map Prod.fst := List.mem_map.mpr ⟨(k, v), hmem, rfl⟩
  obtain ⟨v', hget⟩ := Option.isSome_iff_exists.mp (GoMap.isSome_get?.mpr hkey)
  rw [hget, hunique v' (GoMap.mem_of_get? hget)]

theorem GoMap.get?_append (m m' : GoMap κ ν) (k : κ) :
    GoMap.get? (m ++ m') k = (GoMap.get? m k).or (GoMap.get? m' k) := by
  induction m with
  | nil => rfl
  | cons entry m ih =>
      rw [List.cons_append, GoMap.get?, GoMap.get?, ih]
      split <;> rfl

theorem GoMap.get?_map {μ : Type} (f : κ → ν → μ) (m : GoMap κ ν) (k : κ) :
    GoMap.get? (m.map fun entry => (entry.1, f entry.1 entry.2)) k =
      (GoMap.get? m k).map (f k) := by
  induction m with
  | nil => rfl
  | cons entry m ih =>
      rw [List.map_cons, GoMap.get?, GoMap.get?, ih]
      by_cases h : entry.1 = k
      · simp [h]
      · simp [h]

/-- Of several assignments to one key the last one counts. -/
theorem GoMap.get?_foldl_set (entries m : GoMap κ ν) (k : κ) :
    GoMap.get? (entries.foldl (fun m entry => GoMap.set m entry.1 entry.2) m) k =
      (GoMap.get? entries.reverse k).or (GoMap.get? m k) := by
  induction entries generalizing m with
  | nil => rfl
  | cons entry entries ih =>
      rw [List.foldl_cons, ih, List.reverse_cons, GoMap.get?_append, GoMap.get?_set,
        Option.or_assoc]
      congr 1
      by_cases h : entry.1 = k
      · simp [GoMap.get?, h]
      · simp [GoMap.get?, h]

end Lawful

/-! ## Keys of interface type

A key of type `any` is nil or has a dynamic type.  The operator `==` is defined
on comparable values only.
-/

class GoAny (K : Type) extends BEq K, PartialEquivBEq K where
  isNil : K → Bool
  comparable : K → Bool
  typeName : K → String
  hashable_of_beq : ∀ {a b : K}, (a == b) = true →
    (isNil b || comparable b) = true

namespace GoAny

variable {K : Type} [GoAny K]

/-- The negation of `key != nil && !reflect.ValueOf(key).Comparable()`. -/
def hashable (k : K) : Bool := isNil k || comparable k

/-- The types whose values are all comparable, with their own equality. -/
@[reducible] def ofDecidableEq (K : Type) [DecidableEq K] (typeName : String) :
    GoAny K where
  isNil _ := false
  comparable _ := true
  typeName _ := typeName
  hashable_of_beq := by simp

end GoAny

/-- A map of lists holds one element more after it was added to its list. -/
theorem GoMap.flatMap_set_append_perm (m : GoMap κ (List ν)) (k : κ) (v : ν) :
    ((GoMap.set m k (GoMap.getD m k [] ++ [v])).flatMap Prod.snd).Perm
      (m.flatMap Prod.snd ++ [v]) := by
  induction m with
  | nil => simp [GoMap.set, GoMap.getD]
  | cons entry m ih =>
      cases h : entry.1 == k with
      | true =>
          have hget : GoMap.getD (entry :: m) k [] = entry.2 := by
            simp [GoMap.getD, GoMap.get?, h]
          rw [hget, GoMap.set, if_pos h, List.flatMap_cons, List.flatMap_cons,
            List.append_assoc, List.append_assoc]
          exact List.perm_append_comm.append_left _
      | false =>
          have hget : GoMap.getD (entry :: m) k [] = GoMap.getD m k [] := by
            simp [GoMap.getD, GoMap.get?, h]
          rw [hget, GoMap.set, if_neg (by simp [h]), List.flatMap_cons, List.flatMap_cons,
            List.append_assoc]
          exact ih.append_left _

end PgMesh.Foundation
