import PgMesh.Foundation.Transition
import PgMesh.Foundation.ListUpdate
import PgMesh.Foundation.GoMap
import Mathlib.Algebra.BigOperators.Group.List.Basic
import Mathlib.Algebra.GroupWithZero.Nat

/-!
# Potentials of transition systems

Each of a system's own steps lowers the potential of the state.  So a run of own steps is
no longer than the potential, and own steps lead to a state in which none is left.
When the other steps raise the potential by a known credit, the own steps of any
run are counted by the credits.
-/

namespace PgMesh.Foundation

variable {σ ι : Type*} {step : σ → ι → Option σ} {P : σ → Prop} {potential : σ → Nat}
  {own : ι → Bool}

/-- In the states that satisfy the invariant `P`, own steps lower the potential. -/
structure Lowers (step : σ → ι → Option σ) (P : σ → Prop) (potential : σ → Nat)
    (own : ι → Bool) : Prop where
  preserved : ∀ {s label t}, P s → step s label = some t → P t
  lowers : ∀ {s label t}, P s → own label = true → step s label = some t →
    potential t < potential s

namespace Lowers

variable (h : Lowers step P potential own)
include h

theorem length_le {labels : List ι} {s t : σ} (start : P s)
    (hown : ∀ label ∈ labels, own label = true) (hrun : runFrom step s labels = some t) :
    labels.length + potential t ≤ potential s := by
  induction labels generalizing s with
  | nil =>
      cases hrun
      simp
  | cons label labels ih =>
      obtain ⟨next, hstep, hrest⟩ := runFrom_cons_eq_some.mp hrun
      have hhead := h.lowers start (hown label List.mem_cons_self) hstep
      have htail := ih (h.preserved start hstep)
        (fun other hmem => hown other (List.mem_cons_of_mem _ hmem)) hrest
      rw [List.length_cons]
      omega

/-- Own steps can be taken until none is left. -/
theorem exists_exhausted {s : σ} (start : P s) :
    ∃ labels t, (∀ label ∈ labels, own label = true) ∧ runFrom step s labels = some t ∧
      ∀ label, own label = true → step t label = none := by
  induction hn : potential s using Nat.strongRecOn generalizing s with
  | ind n ih =>
      by_cases hstuck : ∀ label, own label = true → step s label = none
      · exact ⟨[], s, nofun, rfl, hstuck⟩
      · simp only [not_forall] at hstuck
        obtain ⟨label, hown, hstep⟩ := hstuck
        obtain ⟨next, hnext⟩ := Option.ne_none_iff_exists'.mp hstep
        obtain ⟨labels, t, hall, hrun, hend⟩ :=
          ih _ (hn ▸ h.lowers start hown hnext) (h.preserved start hnext) rfl
        refine ⟨label :: labels, t, ?_, runFrom_cons_eq_some.mpr ⟨next, hnext, hrun⟩, hend⟩
        intro other hmem
        rcases List.mem_cons.mp hmem with rfl | hmem
        · exact hown
        · exact hall other hmem

/-- The own steps of any run, where the other steps bring at most their credit. -/
theorem countP_le {credit : ι → Nat}
    (raises : ∀ {s label t}, P s → own label = false → step s label = some t →
      potential t ≤ potential s + credit label)
    {labels : List ι} {s t : σ} (start : P s) (hrun : runFrom step s labels = some t) :
    labels.countP own + potential t ≤ potential s + (labels.map credit).sum := by
  induction labels generalizing s with
  | nil =>
      cases hrun
      simp
  | cons label labels ih =>
      obtain ⟨next, hstep, hrest⟩ := runFrom_cons_eq_some.mp hrun
      have htail := ih (h.preserved start hstep) hrest
      rw [List.countP_cons, List.map_cons, List.sum_cons]
      cases hown : own label with
      | false =>
          have hhead := raises start hown hstep
          simp only [Bool.false_eq_true, if_false]
          omega
      | true =>
          have hhead := h.lowers start hown hstep
          simp only [if_true]
          omega

end Lowers

/-! ## Sums over tables -/

variable {α κ ν : Type}

/-- A sum over a table of which one object was replaced. -/
theorem sum_map_set {l : List α} {i : Nat} {x : α} (h : l[i]? = some x) (y : α) (f : α → Nat) :
    ((l.set i y).map f).sum + f x = (l.map f).sum + f y := by
  obtain ⟨before, after, rfl, rfl⟩ := exists_split_of_getElem? h
  rw [set_split]
  simp only [List.map_append, List.map_cons, List.sum_append, List.sum_cons]
  omega

/-- A sum over a list, taken key by key. -/
theorem sum_map_filter_key {l : List α} {key : α → Nat} {n : Nat} (h : ∀ x ∈ l, key x < n)
    (f : α → Nat) :
    ((List.range n).map fun k => ((l.filter (key · = k)).map f).sum).sum = (l.map f).sum := by
  induction l with
  | nil => simp
  | cons x l ih =>
      have hsplit : ∀ k, (((x :: l).filter (key · = k)).map f).sum =
          (if k = key x then f x else 0) + ((l.filter (key · = k)).map f).sum := by
        intro k
        by_cases hk : k = key x
        · simp [hk]
        · simp [hk, Ne.symm hk]
      have hcount : (List.range n).count (key x) = 1 :=
        List.count_eq_one_of_mem List.nodup_range (List.mem_range.mpr (h x List.mem_cons_self))
      simp only [hsplit, List.sum_map_add, ih fun y hy => h y (List.mem_cons_of_mem _ hy)]
      rw [List.sum_map_eq_nsmul_single (key x) _ fun k hk _ => if_neg hk, hcount]
      simp
/-- The sum over the entries of a map. -/
def GoMap.sum (m : GoMap κ ν) (f : ν → Nat) : Nat := (m.map fun entry => f entry.2).sum

theorem GoMap.sum_set [BEq κ] {m : GoMap κ ν} {k : κ} {v : ν} (h : GoMap.get? m k = some v)
    (v' : ν) (f : ν → Nat) : (GoMap.set m k v').sum f + f v = m.sum f + f v' := by
  induction m with
  | nil => cases h
  | cons entry m ih =>
      obtain ⟨k₀, v₀⟩ := entry
      simp only [GoMap.get?, GoMap.set, GoMap.sum] at h ih ⊢
      split at h
      · rename_i hkey
        cases h
        simp only [if_pos hkey, List.map_cons, List.sum_cons]
        omega
      · rename_i hkey
        have hrest := ih h
        simp only [if_neg hkey, List.map_cons, List.sum_cons]
        omega

end PgMesh.Foundation
