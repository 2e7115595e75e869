import Mathlib.Data.List.Perm.Basic

/-!
# Distinct elements and partitions

`List.eraseDupsBy r` keeps the first of the elements that `r` relates.  The
relation is symmetric and transitive but need not be reflexive: an element
that is not related to itself is kept each time it occurs.
-/

namespace PgMesh.Foundation

variable {α β : Type*}

section EraseDups

variable {r : α → α → Bool}

/-- Rule of induction that follows the recursion of `eraseDupsBy`. -/
theorem eraseDupsBy_induction {P : List α → Prop} (nil : P [])
    (cons : ∀ a l, P (l.filter fun b => r b a = false) → P (a :: l))
    (l : List α) : P l := by
  induction hn : l.length using Nat.strongRecOn generalizing l with
  | ind n ih =>
      cases l with
      | nil => exact nil
      | cons a l =>
          apply cons
          have hle := List.length_filter_le (fun b => decide (r b a = false)) l
          rw [List.length_cons] at hn
          exact ih _ (by omega) _ rfl

theorem eraseDupsBy_sublist (l : List α) : (l.eraseDupsBy r).Sublist l := by
  induction l using eraseDupsBy_induction (r := r) with
  | nil => exact .slnil
  | cons a l ih =>
      rw [List.eraseDupsBy_cons]
      exact (ih.trans List.filter_sublist).cons_cons a

theorem eraseDupsBy_pairwise (l : List α) :
    (l.eraseDupsBy r).Pairwise fun a b => r b a = false := by
  induction l using eraseDupsBy_induction (r := r) with
  | nil => exact .nil
  | cons a l ih =>
      rw [List.eraseDupsBy_cons, List.pairwise_cons]
      refine ⟨?_, ih⟩
      intro b hb
      have hmem := (eraseDupsBy_sublist _).subset hb
      simpa using (List.mem_filter.mp hmem).2

/-- A map that keeps the relation commutes with the removal of duplicates. -/
theorem map_eraseDupsBy {r' : β → β → Bool} {f : α → β} {l : List α}
    (h : ∀ a ∈ l, ∀ b ∈ l, r' (f a) (f b) = r a b) :
    (l.eraseDupsBy r).map f = (l.map f).eraseDupsBy r' := by
  induction l using eraseDupsBy_induction (r := r) with
  | nil => rfl
  | cons a l ih =>
      have hsub : ∀ b ∈ l.filter (fun b => decide (r b a = false)), b ∈ a :: l :=
        fun b hb => List.mem_cons_of_mem _ (List.mem_of_mem_filter hb)
      have hfilter : (l.map f).filter (fun b => decide (r' b (f a) = false)) =
          (l.filter fun b => decide (r b a = false)).map f := by
        rw [List.filter_map]
        congr 1
        apply List.filter_congr
        intro b hb
        simp [h b (List.mem_cons_of_mem _ hb) a List.mem_cons_self]
      rw [List.eraseDupsBy_cons, List.map_cons, List.map_cons, List.eraseDupsBy_cons,
        hfilter, ih fun b hb c hc => h b (hsub b hb) c (hsub c hc)]

section Related

variable (trans : ∀ a b c, r a b = true → r b c = true → r a c = true)

include trans

/-- A new element at the end is kept when it is related to none before it. -/
theorem eraseDupsBy_concat (l : List α) (x : α) :
    (l ++ [x]).eraseDupsBy r =
      l.eraseDupsBy r ++ if l.any (r x) then [] else [x] := by
  induction l using eraseDupsBy_induction (r := r) with
  | nil => simp [List.eraseDupsBy_cons]
  | cons a l ih =>
      rw [List.cons_append, List.eraseDupsBy_cons, List.eraseDupsBy_cons,
        List.filter_append]
      cases hxa : r x a with
      | true => simp [hxa]
      | false =>
          have hany : (l.filter fun b => decide (r b a = false)).any (r x) =
              l.any (r x) := by
            rw [List.any_filter]
            congr 1
            funext b
            cases hxb : r x b with
            | false => simp
            | true =>
                cases hba : r b a with
                | false => simp
                | true => exact absurd (trans _ _ _ hxb hba) (by simp [hxa])
          have hfilter : [x].filter (fun b => decide (r b a = false)) = [x] := by
            simp [hxa]
          have hcons : (a :: l).any (r x) = l.any (r x) := by
            simp [List.any_cons, hxa]
          rw [hfilter, hcons, ih, hany, List.cons_append]

/-- An element that is related to some other is represented. -/
theorem exists_mem_eraseDupsBy (symm : ∀ a b, r a b = true → r b a = true)
    {l : List α} {x y : α} (hx : x ∈ l) (hxy : r x y = true) :
    ∃ z ∈ l.eraseDupsBy r, r z y = true := by
  induction l using eraseDupsBy_induction (r := r) with
  | nil => cases hx
  | cons a l ih =>
      rw [List.eraseDupsBy_cons]
      rcases List.mem_cons.mp hx with rfl | hx
      · exact ⟨x, List.mem_cons_self, hxy⟩
      · cases hxa : r x a with
        | true => exact ⟨a, List.mem_cons_self, trans _ _ _ (symm _ _ hxa) hxy⟩
        | false =>
            obtain ⟨z, hz, hzy⟩ := ih (List.mem_filter.mpr ⟨hx, by simp [hxa]⟩)
            exact ⟨z, List.mem_cons_of_mem _ hz, hzy⟩

end Related

end EraseDups

/-- Classes that overlap nowhere and cover a list partition it. -/
theorem flatMap_filter_perm {p : β → α → Bool} {classes : List β} {l : List α}
    (disjoint : classes.Pairwise fun b c => ∀ x, p b x = true → p c x = false)
    (covered : ∀ x ∈ l, ∃ b ∈ classes, p b x = true) :
    (classes.flatMap fun b => l.filter (p b)).Perm l := by
  induction classes generalizing l with
  | nil =>
      cases l with
      | nil => exact .nil
      | cons x l =>
          obtain ⟨b, hb, -⟩ := covered x List.mem_cons_self
          cases hb
  | cons b classes ih =>
      obtain ⟨hhead, htail⟩ := List.pairwise_cons.mp disjoint
      have hrest : (classes.flatMap fun c => (l.filter (!p b ·)).filter (p c)).Perm
          (l.filter (!p b ·)) := by
        apply ih htail
        intro x hx
        obtain ⟨hx, hnot⟩ := List.mem_filter.mp hx
        obtain ⟨c, hc, hcx⟩ := covered x hx
        rcases List.mem_cons.mp hc with rfl | hc
        · simp [hcx] at hnot
        · exact ⟨c, hc, hcx⟩
      have hsame : (classes.flatMap fun c => (l.filter (!p b ·)).filter (p c)) =
          classes.flatMap fun c => l.filter (p c) := by
        apply List.flatMap_congr
        intro c hc
        rw [List.filter_filter]
        apply List.filter_congr
        intro x _
        cases hbx : p b x with
        | false => simp
        | true => simp [hhead c hc x hbx]
      rw [List.flatMap_cons, ← hsame]
      exact (hrest.append_left _).trans (List.filter_append_perm _ _)

theorem filterMap_eq_map_filter {f : α → Option β} {p : α → Bool} {g : α → β}
    {l : List α} (h : ∀ a ∈ l, f a = if p a then some (g a) else none) :
    l.filterMap f = (l.filter p).map g := by
  induction l with
  | nil => rfl
  | cons a l ih =>
      have hrest := ih fun b hb => h b (List.mem_cons_of_mem _ hb)
      have ha := h a List.mem_cons_self
      cases hp : p a with
      | false => simp_all
      | true => simp_all

end PgMesh.Foundation
