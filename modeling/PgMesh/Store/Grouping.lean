import PgMesh.Store.Routing

/-!
# Grouping the rows of a COPY by replica set

The generated methods of a routed `:copyfrom` query, synchronous and
asynchronous, resolve every item before anything is executed and collect the
rows of each replica set in input order.
-/

namespace PgMesh.Store

open PgMesh.Foundation
open PgMesh.Topology

/-- What the generator fixes for one routed `:copyfrom` query. -/
structure CopyQuery (Item A α : Type) where
  methodName : String
  route : Item → A
  row : Item → α

variable {ρ κ A Item α ε : Type} [Named ρ] [Inhabited κ]

/-- `copyShardGroup` and `asyncCopyShardGroup`. -/
structure CopyShardGroup (ρ α : Type) where
  shard : ResolvedShard ρ
  args : List α

abbrev GroupsByName (ρ α : Type) := GoMap String (CopyShardGroup ρ α)

/-- The loop over the input; `method` is the name that its errors mention. -/
def groupRows (s : MeshStore ρ κ A) (q : CopyQuery Item A α) (method : String) :
    GroupsByName ρ α → List (Item × Nat) →
      Except (GoError ε) (GroupsByName ρ α)
  | groups, [] => .ok groups
  | groups, (item, inputIndex) :: items =>
      match s.resolve (q.route item) with
      | .error routeErr =>
          .error (.errorf ("route " ++ method ++ " input %d: %w")
            [.number inputIndex, .wrapped routeErr])
      | .ok shard =>
          let shardGroup :=
            (GoMap.get? groups shard.replicaSetName).getD ⟨shard, []⟩
          let shardGroup :=
            { shardGroup with args := shardGroup.args ++ [q.row item] }
          groupRows s q method
            (GoMap.set groups shard.replicaSetName shardGroup) items

/-! ## The rows of each replica set -/

section Spec

variable (s : MeshStore ρ κ A) (q : CopyQuery Item A α)

/-- The rows of the items that resolve to a replica set, in input order. -/
def rowsFor (target : String) (items : List Item) : List α :=
  (items.filter fun item => s.targetName? (q.route item) == some target).map q.row

/-- A group holds the rows of its replica set, and there is one for each non-empty list. -/
structure Grouped (items : List Item) (groups : GroupsByName ρ α) : Prop where
  rows : ∀ target, (GoMap.get? groups target).map CopyShardGroup.args =
    if rowsFor s q target items = [] then none
    else some (rowsFor s q target items)
  shard : ∀ target group, GoMap.get? groups target = some group →
    group.shard.replicaSetName = target ∧
      group.shard.replicaSet ∈ s.mesh.replicaSets

theorem rowsFor_append_singleton (target : String) (items : List Item)
    (item : Item) :
    rowsFor s q target (items ++ [item]) =
      rowsFor s q target items ++
        if s.targetName? (q.route item) = some target then [q.row item] else [] := by
  unfold rowsFor
  by_cases h : s.targetName? (q.route item) = some target <;> simp [h]

theorem Grouped.nil : Grouped s q [] ([] : GroupsByName ρ α) := by
  constructor
  · intro target
    rfl
  · intro target group h
    cases h

variable {s q}

theorem Grouped.add {items : List Item} {groups : GroupsByName ρ α}
    (h : Grouped s q items groups) {item : Item} {shard : ResolvedShard ρ}
    (hresolve : s.resolve (ε := ε) (q.route item) = .ok shard) :
    Grouped s q (items ++ [item])
      (GoMap.set groups shard.replicaSetName
        { (GoMap.get? groups shard.replicaSetName).getD ⟨shard, []⟩ with
          args := ((GoMap.get? groups shard.replicaSetName).getD ⟨shard, []⟩).args
            ++ [q.row item] }) := by
  have htarget := MeshStore.targetName?_of_ok hresolve
  constructor
  · intro target
    rw [GoMap.get?_set, rowsFor_append_singleton, htarget]
    by_cases heq : shard.replicaSetName = target
    · subst heq
      have hrows := h.rows shard.replicaSetName
      cases hget : GoMap.get? groups shard.replicaSetName with
      | none =>
          rw [hget] at hrows
          have hnil : rowsFor s q shard.replicaSetName items = [] := by
            by_contra hne
            rw [if_neg hne] at hrows
            cases hrows
          simp [hnil]
      | some group =>
          rw [hget] at hrows
          have hargs : group.args = rowsFor s q shard.replicaSetName items := by
            by_cases hnil : rowsFor s q shard.replicaSetName items = []
            · rw [if_pos hnil] at hrows
              cases hrows
            · rw [if_neg hnil] at hrows
              exact Option.some.inj hrows
          simp [hargs]
    · have hne : some shard.replicaSetName ≠ some target := by
        simpa using heq
      rw [if_neg heq, if_neg hne, List.append_nil]
      exact h.rows target
  · intro target group hget
    rw [GoMap.get?_set] at hget
    split at hget
    · rename_i heq
      cases hget
      cases hold : GoMap.get? groups shard.replicaSetName with
      | none =>
          exact ⟨heq, MeshStore.replicaSet_mem_of_ok hresolve⟩
      | some old =>
          obtain ⟨hname, hmem⟩ := h.shard _ old hold
          exact ⟨hname.trans heq, hmem⟩
    · exact h.shard target group hget

/-- The loop either groups every item or stops at the first one that does not resolve. -/
theorem groupRows_spec (method : String) (items : List Item)
    (rest : List (Item × Nat)) {groups : GroupsByName ρ α}
    (h : Grouped s q items groups) :
    (∃ groups', groupRows (ε := ε) s q method groups rest = .ok groups' ∧
      Grouped s q (items ++ rest.map Prod.fst) groups' ∧
      ∀ entry ∈ rest, s.targetName? (q.route entry.1) ≠ none) ∨
    (∃ entry ∈ rest, ∃ routeErr, s.resolve (q.route entry.1) = .error routeErr ∧
      groupRows (ε := ε) s q method groups rest =
        .error (.errorf ("route " ++ method ++ " input %d: %w")
          [.number entry.2, .wrapped routeErr])) := by
  induction rest generalizing items groups with
  | nil =>
      left
      exact ⟨groups, rfl, by simpa using h, nofun⟩
  | cons entry rest ih =>
      obtain ⟨item, inputIndex⟩ := entry
      simp only [groupRows]
      cases hresolve : s.resolve (ε := ε) (q.route item) with
      | error routeErr =>
          right
          exact ⟨(item, inputIndex), List.mem_cons_self, routeErr, hresolve, rfl⟩
      | ok shard =>
          rcases ih (items ++ [item]) (h.add hresolve) with
            ⟨groups', hok, hgrouped, htargets⟩ | ⟨entry, hmem, routeErr, herr, heq⟩
          · left
            refine ⟨groups', hok, ?_, ?_⟩
            · simpa [List.append_assoc] using hgrouped
            · intro entry hentry
              rcases List.mem_cons.mp hentry with rfl | hentry
              · simp [MeshStore.targetName?_of_ok hresolve]
              · exact htargets entry hentry
          · right
            exact ⟨entry, List.mem_cons_of_mem _ hmem, routeErr, herr, heq⟩

/-- Each replica set that some item resolves to, with its rows. -/
def handedOver (s : MeshStore ρ κ A) (q : CopyQuery Item A α)
    (items : List Item) : List (ρ × List α) :=
  s.mesh.replicaSets.filterMap fun r =>
    if (rowsFor s q (name r) items).isEmpty then none
    else some (r, rowsFor s q (name r) items)

theorem Grouped.get?_eq {items : List Item} {groups : GroupsByName ρ α}
    (h : Grouped s q items groups) {r : ρ} (hr : r ∈ s.mesh.replicaSets) :
    (GoMap.get? groups (name r)).map (fun g => (g.shard.replicaSet, g.args)) =
      if (rowsFor s q (name r) items).isEmpty then none
      else some (r, rowsFor s q (name r) items) := by
  have hrows := h.rows (name r)
  cases hget : GoMap.get? groups (name r) with
  | none =>
      rw [hget] at hrows
      by_cases hnil : rowsFor s q (name r) items = []
      · simp [hnil]
      · rw [if_neg hnil] at hrows
        cases hrows
  | some group =>
      obtain ⟨hname, hmem⟩ := h.shard (name r) group hget
      have hset : group.shard.replicaSet = r := s.mesh.name_inj _ hmem r hr hname
      rw [hget] at hrows
      by_cases hnil : rowsFor s q (name r) items = []
      · rw [if_pos hnil] at hrows
        cases hrows
      · rw [if_neg hnil] at hrows
        have hargs : group.args = rowsFor s q (name r) items :=
          Option.some.inj hrows
        simp [hset, hargs, hnil]

theorem populated_eq {items : List Item} {groups : GroupsByName ρ α}
    (h : Grouped s q items groups) :
    (populated s.mesh groups).map (fun g => (g.shard.replicaSet, g.args)) =
      handedOver s q items := by
  unfold populated handedOver
  rw [List.map_filterMap]
  apply List.filterMap_congr
  intro r hr
  exact h.get?_eq hr

theorem groupRows_ok {method : String} {arg : List Item}
    {groups : GroupsByName ρ α}
    (h : groupRows (ε := ε) s q method [] arg.zipIdx = .ok groups) :
    Grouped s q arg groups ∧ ∀ item ∈ arg, s.targetName? (q.route item) ≠ none := by
  rcases groupRows_spec (ε := ε) method [] arg.zipIdx (Grouped.nil s q) with
    ⟨groups', hok, hgrouped, htargets⟩ | ⟨entry, -, routeErr, -, herror⟩
  · rw [hok] at h
    cases h
    have hfst : arg.zipIdx.map Prod.fst = arg := List.zipIdx_map_fst 0 arg
    rw [List.nil_append, hfst] at hgrouped
    refine ⟨hgrouped, ?_⟩
    intro item hitem
    rw [← hfst] at hitem
    obtain ⟨entry, hentry, rfl⟩ := List.mem_map.mp hitem
    exact htargets entry hentry
  · rw [herror] at h
    cases h

theorem groupRows_of_targets (method : String) {arg : List Item}
    (h : ∀ item ∈ arg, s.targetName? (q.route item) ≠ none) :
    ∃ groups, groupRows (ε := ε) s q method [] arg.zipIdx = .ok groups := by
  rcases groupRows_spec (ε := ε) method [] arg.zipIdx (Grouped.nil s q) with
    ⟨groups, hok, -⟩ | ⟨entry, hentry, routeErr, hresolve, -⟩
  · exact ⟨groups, hok⟩
  · have hmem : entry.1 ∈ arg := by
      rw [← List.zipIdx_map_fst 0 arg]
      exact List.mem_map_of_mem hentry
    exact absurd (MeshStore.targetName?_of_error hresolve) (h entry.1 hmem)

theorem groupRows_of_unresolved (method : String) {arg : List Item}
    (h : ∃ item ∈ arg, s.targetName? (q.route item) = none) :
    ∃ err, groupRows (ε := ε) s q method [] arg.zipIdx = .error err := by
  obtain ⟨item, hitem, hnone⟩ := h
  cases hrows : groupRows (ε := ε) s q method [] arg.zipIdx with
  | error err => exact ⟨err, rfl⟩
  | ok groups => exact absurd hnone ((groupRows_ok hrows).2 item hitem)

/-- Only replica sets with at least one row have a group. -/
theorem mem_populated {items : List Item} {groups : GroupsByName ρ α}
    (h : Grouped s q items groups) {group : CopyShardGroup ρ α}
    (hgroup : group ∈ populated s.mesh groups) :
    group.shard.replicaSet ∈ s.mesh.replicaSets ∧ group.args ≠ [] := by
  have hentry : (group.shard.replicaSet, group.args) ∈ handedOver s q items := by
    rw [← populated_eq h]
    exact List.mem_map_of_mem hgroup
  obtain ⟨r, hr, hsome⟩ := List.mem_filterMap.mp hentry
  split at hsome
  · cases hsome
  · rename_i hrows
    obtain ⟨hset, hargs⟩ := Prod.mk.inj (Option.some.inj hsome)
    rw [← hset, ← hargs]
    exact ⟨hr, by simpa using hrows⟩

end Spec

/-! ## A query over two sites -/

def siteCopy : CopyQuery Nat Nat Nat := ⟨"CopyNumbers", id, id⟩

end PgMesh.Store
