import Mathlib.Data.List.Nodup
import Mathlib.Data.List.Perm.Basic

/-!
# Concurrent tasks that fill the slots of a slice

Task `i` writes its outcome to slot `i`.  The list of completions is the order
in which the tasks finish; once all have finished, that order is forgotten.
-/

namespace PgMesh.Foundation

variable {τ : Type}

/-- The slice after the completions, in the order in which they happened. -/
def fill : List τ → List (Nat × τ) → List τ
  | slots, [] => slots
  | slots, (i, value) :: completions => fill (slots.set i value) completions

/-- Every task has completed once, with its outcome, in some order. -/
def Completes (outcomes : List τ) (completions : List (Nat × τ)) : Prop :=
  completions.Perm (outcomes.zipIdx.map Prod.swap)

@[simp] theorem length_fill (slots : List τ) (completions : List (Nat × τ)) :
    (fill slots completions).length = slots.length := by
  induction completions generalizing slots with
  | nil => rfl
  | cons completion completions ih => simp [fill, ih]

theorem getElem?_fill_of_not_mem (slots : List τ)
    (completions : List (Nat × τ)) {i : Nat}
    (h : i ∉ completions.map Prod.fst) :
    (fill slots completions)[i]? = slots[i]? := by
  induction completions generalizing slots with
  | nil => rfl
  | cons completion completions ih =>
      simp only [List.map_cons, List.mem_cons, not_or] at h
      simp only [fill]
      rw [ih _ h.2, List.getElem?_set_ne (Ne.symm h.1)]

theorem getElem?_fill_of_mem (slots : List τ)
    {completions : List (Nat × τ)} {i : Nat} {value : τ}
    (hnodup : (completions.map Prod.fst).Nodup)
    (hmem : (i, value) ∈ completions) (hi : i < slots.length) :
    (fill slots completions)[i]? = some value := by
  induction completions generalizing slots with
  | nil => cases hmem
  | cons completion completions ih =>
      obtain ⟨hnot, hrest⟩ := List.nodup_cons.mp hnodup
      simp only [fill]
      rcases List.mem_cons.mp hmem with rfl | hmem
      · rw [getElem?_fill_of_not_mem _ _ hnot, List.getElem?_set_self hi]
      · exact ih _ hrest hmem (by simpa using hi)

theorem completes_map {α : Type} (f : τ → α) {outcomes : List τ}
    {completions : List (Nat × τ)} (h : Completes outcomes completions) :
    Completes (outcomes.map f) (completions.map fun (i, value) => (i, f value)) := by
  have hmap := List.Perm.map (fun x : Nat × τ => (x.1, f x.2)) h
  rw [Completes, List.zipIdx_map, List.map_map]
  rw [List.map_map] at hmap
  exact hmap

/-- The completion order does not matter. -/
theorem fill_of_completes {slots outcomes : List τ}
    {completions : List (Nat × τ)} (h : Completes outcomes completions)
    (hlength : slots.length = outcomes.length) :
    fill slots completions = outcomes := by
  have hkeys : (completions.map Prod.fst).Nodup := by
    rw [(h.map Prod.fst).nodup_iff, List.map_map]
    change (outcomes.zipIdx.map Prod.snd).Nodup
    rw [List.zipIdx_map_snd]
    exact List.nodup_range'
  apply List.ext_getElem?
  intro i
  by_cases hi : i < outcomes.length
  · rw [List.getElem?_eq_getElem hi]
    apply getElem?_fill_of_mem slots hkeys _ (by omega)
    rw [h.mem_iff]
    apply List.mem_map.mpr
    exact ⟨(outcomes[i], i), List.mem_zipIdx_iff_getElem?.mpr
      (List.getElem?_eq_getElem hi), rfl⟩
  · have hfill := length_fill slots completions
    rw [List.getElem?_eq_none (by omega), List.getElem?_eq_none (by omega)]

end PgMesh.Foundation
