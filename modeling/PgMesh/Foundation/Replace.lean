import Mathlib.Data.List.Infix
import Mathlib.Algebra.BigOperators.Ring.List
import Mathlib.Algebra.Order.BigOperators.Group.List
import Mathlib.Algebra.Order.Ring.Nat

/-!
# Replacing a text by another

All occurrences of a text are found from left to right, none of them
overlapping an earlier one.  What a replacement does is counted, so that two
replacements can be compared without following the positions.
-/

namespace PgMesh.Foundation

variable {α : Type} [DecidableEq α]

/--
A list in which every occurrence of `old` is marked by `none`.  The first `skip`
elements belong to an occurrence that is marked already.
-/
def markFrom (old : List α) : Nat → List α → List (Option α)
  | _, [] => []
  | skip + 1, _ :: rest => markFrom old skip rest
  | 0, x :: rest =>
      if old <+: x :: rest then none :: markFrom old (old.length - 1) rest
      else some x :: markFrom old 0 rest

def markAll (old l : List α) : List (Option α) := markFrom old 0 l

/-- `strings.ReplaceAll`, for an `old` that is not empty. -/
def replaceAll (old new l : List α) : List α :=
  (markAll old l).flatMap fun x => x.elim new fun x => [x]

/-- The number of occurrences that are replaced. -/
def occurrences (old l : List α) : Nat := (markAll old l).count none

theorem markFrom_eq_drop (old : List α) (skip : Nat) (l : List α) :
    markFrom old skip l = markAll old (l.drop skip) := by
  induction skip generalizing l with
  | zero => rfl
  | succ skip ih =>
      cases l with
      | nil => rfl
      | cons x rest => exact ih rest

section Marks

variable {old : List α} (hold : old ≠ [])

@[simp] theorem markAll_nil (old : List α) : markAll old [] = [] := rfl

include hold in
theorem markAll_append_old (rest : List α) :
    markAll old (old ++ rest) = none :: markAll old rest := by
  cases old with
  | nil => exact absurd rfl hold
  | cons x tail =>
      have hfound : x :: tail <+: x :: (tail ++ rest) :=
        List.prefix_append (x :: tail) rest
      rw [List.cons_append, markAll, markFrom, if_pos hfound, markFrom_eq_drop]
      simp

theorem markAll_cons_of_not_found {x : α} {rest : List α} (h : ¬ old <+: x :: rest) :
    markAll old (x :: rest) = some x :: markAll old rest := by
  rw [markAll, markFrom, if_neg h]
  rfl

include hold in
/-- The order in which occurrences are found. -/
theorem mark_induction {P : List α → Prop} (hnil : P [])
    (hfound : ∀ rest, P rest → P (old ++ rest))
    (hkept : ∀ x rest, ¬ old <+: x :: rest → P rest → P (x :: rest)) (l : List α) :
    P l := by
  induction hlength : l.length using Nat.strong_induction_on generalizing l with
  | h n ih =>
      subst hlength
      cases l with
      | nil => exact hnil
      | cons x rest =>
          by_cases hstart : old <+: x :: rest
          · obtain ⟨after, hafter⟩ := hstart
            rw [← hafter]
            have hlt : after.length < (x :: rest).length := by
              have hpos := List.length_pos_of_ne_nil hold
              rw [← hafter, List.length_append]
              omega
            exact hfound after (ih after.length hlt after rfl)
          · exact hkept x rest hstart (ih rest.length (by simp) rest rfl)

include hold in
/-- A list can be searched in two parts when no occurrence lies across them. -/
theorem markAll_append {a b : List α}
    (hcross : ∀ u v, old = u ++ v → u ≠ [] → v ≠ [] → u <:+ a → ¬ v <+: b) :
    markAll old (a ++ b) = markAll old a ++ markAll old b := by
  induction a using mark_induction hold with
  | hnil => rfl
  | hfound rest ih =>
      have hrest := ih fun u v h hu hv hsuffix =>
        hcross u v h hu hv (hsuffix.trans (List.suffix_append old rest))
      rw [List.append_assoc, markAll_append_old hold, markAll_append_old hold, hrest,
        List.cons_append]
  | hkept x rest hnot ih =>
      have hrest := ih fun u v h hu hv hsuffix =>
        hcross u v h hu hv (hsuffix.trans (List.suffix_cons x rest))
      have hwhole : ¬ old <+: x :: (rest ++ b) := by
        intro hstart
        have hpart : x :: rest <+: x :: (rest ++ b) := List.prefix_append (x :: rest) b
        rcases List.prefix_or_prefix_of_prefix hstart hpart with h | ⟨v, hv⟩
        · exact hnot h
        · have hvne : v ≠ [] := by
            rintro rfl
            rw [List.append_nil] at hv
            exact hnot (hv ▸ List.prefix_rfl)
          refine hcross (x :: rest) v hv.symm (by simp) hvne List.suffix_rfl ?_
          rw [← hv, ← List.cons_append] at hstart
          exact (List.prefix_append_right_inj _).mp hstart
      rw [List.cons_append, markAll_cons_of_not_found hwhole,
        markAll_cons_of_not_found hnot, hrest, List.cons_append]

include hold in
theorem occurrences_eq_zero_iff {l : List α} : occurrences old l = 0 ↔ ¬ old <:+: l := by
  unfold occurrences
  induction l using mark_induction hold with
  | hnil => simp [List.infix_nil, hold]
  | hfound rest ih =>
      have hinside : old <:+: old ++ rest := ⟨[], rest, by simp⟩
      simp [markAll_append_old hold, hinside]
  | hkept x rest hnot ih =>
      rw [markAll_cons_of_not_found hnot, List.count_cons, List.infix_cons_iff]
      simpa [hnot] using ih

include hold in
/-- Every replacement takes the elements of `old` and adds those of `new`. -/
theorem countP_replaceAll (p : α → Bool) (new l : List α) :
    (replaceAll old new l).countP p + occurrences old l * old.countP p =
      l.countP p + occurrences old l * new.countP p := by
  unfold replaceAll occurrences
  induction l using mark_induction hold with
  | hnil => simp
  | hfound rest ih =>
      simp only [markAll_append_old hold, List.flatMap_cons, Option.elim_none,
        List.countP_append, List.count_cons_self, Nat.add_mul, Nat.one_mul]
      omega
  | hkept x rest hnot ih =>
      simp only [markAll_cons_of_not_found hnot, List.flatMap_cons, Option.elim_some,
        List.singleton_append, List.countP_cons, List.count_cons]
      simp only [reduceCtorEq, beq_iff_eq, if_false, Nat.add_zero]
      omega

include hold in
theorem replaceAll_of_absent {l : List α} (h : ¬ old <:+: l) (new : List α) :
    replaceAll old new l = l := by
  unfold replaceAll
  induction l using mark_induction hold with
  | hnil => rfl
  | hfound rest ih => exact absurd ⟨[], rest, by simp⟩ h
  | hkept x rest hnot ih =>
      have hrest := ih fun hinside => h (List.infix_cons hinside)
      simp [markAll_cons_of_not_found hnot, hrest]

theorem replaceAll_eq_flatMap {ι : Type} {parts : List ι} {text : ι → List α} {l : List α}
    (h : markAll old l = parts.flatMap fun part => markAll old (text part))
    (new : List α) :
    replaceAll old new l = parts.flatMap fun part => replaceAll old new (text part) := by
  rw [replaceAll, h, List.flatMap_assoc]
  rfl

theorem occurrences_eq_sum {ι : Type} {parts : List ι} {text : ι → List α} {l : List α}
    (h : markAll old l = parts.flatMap fun part => markAll old (text part)) :
    occurrences old l = (parts.map fun part => occurrences old (text part)).sum := by
  rw [occurrences, h, List.count_flatMap]
  rfl

end Marks

end PgMesh.Foundation
